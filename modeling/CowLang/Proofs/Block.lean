import CowLang.Instruction
import Mathlib.Data.List.Infix
/-!
# Nested programs

A program whose loop instructions pair up is a tree written out flat.  This file has the trees
(`Block`), the writing out (`Block.flatten`), and the condition on a flat program that says it by
counting (`Balanced`).

Main statements: `flatten_injective` (a flat program is written out of one tree at most) and
`balanced_iff_exists_flatten` (it is written out of a tree exactly when it is balanced).
-/

namespace CowLang

/-- Whether an instruction opens or closes a loop. -/
def Instruction.isLoop : Instruction → Bool
  | .loopOpen | .loopClose => true
  | _ => false

/-- A nested program: a sequence of simple instructions and of loops, each loop with a nested program
as its body; `rest` is what comes after the first of them. -/
inductive Block where
  | done
  | simple (i : Instruction) (plain : i.isLoop = false) (rest : Block)
  | loop (body rest : Block)
deriving DecidableEq

namespace Block

/-- The tokens of a nested program in order, each loop between a `MOO` and a `moo`. -/
def flatten : Block → List Instruction
  | done => []
  | simple i _ rest => i :: rest.flatten
  | loop body rest => .loopOpen :: (body.flatten ++ .loopClose :: rest.flatten)

/-- The number of tokens. -/
def size : Block → Nat
  | done => 0
  | simple _ _ rest => rest.size + 1
  | loop body rest => body.size + rest.size + 2

@[simp]
theorem length_flatten (b : Block) : b.flatten.length = b.size := by
  induction b with
  | done => rfl
  | simple i plain rest ih => simp [flatten, size, ih]
  | loop body rest ihBody ihRest =>
      simp only [flatten, size, List.length_cons, List.length_append, ihBody, ihRest]
      omega

/-- One block after another. -/
def append : Block → Block → Block
  | done, c => c
  | simple i plain rest, c => simple i plain (rest.append c)
  | loop body rest, c => loop body (rest.append c)

@[simp]
theorem flatten_append (b c : Block) : (b.append c).flatten = b.flatten ++ c.flatten := by
  induction b with
  | done => rfl
  | simple i plain rest ih => simp [append, flatten, ih]
  | loop body rest _ ih => simp [append, flatten, ih]

section Loop

variable {body rest : Block} {i : Nat}

theorem getElem?_flatten_body (h : i < body.size) :
    (loop body rest).flatten[i + 1]? = body.flatten[i]? := by
  rw [flatten, List.getElem?_cons_succ, List.getElem?_append_left (by simpa using h)]

theorem getElem?_flatten_close :
    (loop body rest).flatten[body.size + 1]? = some .loopClose := by
  rw [flatten, List.getElem?_cons_succ, List.getElem?_append_right (by simp), length_flatten,
    Nat.sub_self, List.getElem?_cons_zero]

theorem getElem?_flatten_rest :
    (loop body rest).flatten[i + body.size + 2]? = rest.flatten[i]? := by
  have hindex : i + body.size + 1 - body.flatten.length = i + 1 := by
    rw [length_flatten]
    omega
  rw [flatten, List.getElem?_cons_succ, List.getElem?_append_right (by simp; omega), hindex,
    List.getElem?_cons_succ]

end Loop

/-! ## A flat program has one tree at most -/

/-- What may follow a block that has ended: nothing, or the end of the loop around it. -/
def Ends (after : List Instruction) : Prop :=
  ∀ i ∈ after.head?, i = .loopClose

theorem ends_nil : Ends [] := by
  simp [Ends]

theorem ends_loopClose (after : List Instruction) : Ends (.loopClose :: after) := by
  simp [Ends]

/-- The tokens of a block say where it ends, so block and continuation can be told apart. -/
theorem flatten_append_inj {b c : Block} {s t : List Instruction} (hs : Ends s) (ht : Ends t)
    (h : b.flatten ++ s = c.flatten ++ t) : b = c ∧ s = t := by
  -- Where the trees differ in shape, one list begins with `moo` or ends, and the other does not.
  induction b generalizing c s t with
  | done =>
      cases c with
      | done => exact ⟨rfl, h⟩
      | simple i plain rest =>
          have hs' : s = i :: (rest.flatten ++ t) := h
          have hi : i = .loopClose := hs i (by simp [hs'])
          simp [hi, Instruction.isLoop] at plain
      | loop body rest =>
          have hs' : s = .loopOpen :: (body.flatten ++ .loopClose :: rest.flatten ++ t) := h
          have hi : Instruction.loopOpen = .loopClose := hs _ (by simp [hs'])
          cases hi
  | simple i plain rest ih =>
      cases c with
      | done =>
          have ht' : t = i :: (rest.flatten ++ s) := h.symm
          have hi : i = .loopClose := ht i (by simp [ht'])
          simp [hi, Instruction.isLoop] at plain
      | simple j plain' rest' =>
          obtain ⟨rfl, htail⟩ := List.cons.inj h
          obtain ⟨rfl, rfl⟩ := ih hs ht htail
          exact ⟨rfl, rfl⟩
      | loop body' rest' =>
          obtain ⟨rfl, -⟩ := List.cons.inj h
          simp [Instruction.isLoop] at plain
  | loop body rest ihBody ihRest =>
      cases c with
      | done =>
          have ht' : t = .loopOpen :: (body.flatten ++ .loopClose :: rest.flatten ++ s) := h.symm
          have hi : Instruction.loopOpen = .loopClose := ht _ (by simp [ht'])
          cases hi
      | simple j plain rest' =>
          obtain ⟨rfl, -⟩ := List.cons.inj h
          simp [Instruction.isLoop] at plain
      | loop body' rest' =>
          simp only [flatten, List.cons_append, List.append_assoc, List.cons.injEq, true_and] at h
          obtain ⟨rfl, hafter⟩ := ihBody (ends_loopClose _) (ends_loopClose _) h
          obtain ⟨rfl, rfl⟩ := ihRest hs ht (List.cons.inj hafter).2
          exact ⟨rfl, rfl⟩

/-- Different trees are written out differently. -/
theorem flatten_injective : Function.Injective flatten := by
  intro b c h
  exact (flatten_append_inj ends_nil ends_nil (congrArg (· ++ []) h)).1

end Block

/-! ## Balance, by counting -/

/-- What is left of a balanced program when `depth` loops are open: no prefix closes more loops than
were open or are opened in it, and the whole closes them all. -/
structure Closing (depth : Nat) (is : List Instruction) : Prop where
  prefixes : ∀ s, s <+: is → s.count .loopClose ≤ depth + s.count .loopOpen
  total : depth + is.count .loopOpen = is.count .loopClose

/-- No prefix has more `moo` than `MOO`, and the whole has equally many of both. -/
structure Balanced (is : List Instruction) : Prop where
  prefixes : ∀ s, s <+: is → s.count .loopClose ≤ s.count .loopOpen
  total : is.count .loopOpen = is.count .loopClose

theorem balanced_iff_closing {is : List Instruction} : Balanced is ↔ Closing 0 is := by
  constructor
  · intro h
    exact ⟨by simpa using h.prefixes, by simpa using h.total⟩
  · intro h
    exact ⟨by simpa using h.prefixes, by simpa using h.total⟩

/-- One more token changes the number of open loops and nothing else. -/
theorem closing_cons_iff {depth : Nat} {i : Instruction} {is : List Instruction} {after : Nat}
    (hdepth : after + [i].count .loopClose = depth + [i].count .loopOpen) :
    Closing depth (i :: is) ↔ Closing after is := by
  have hcount (s : List Instruction) (x : Instruction) :
      (i :: s).count x = [i].count x + s.count x := by
    rw [← List.count_append, List.singleton_append]
  constructor
  · intro h
    refine ⟨fun s hs => ?_, ?_⟩
    · have hprefix := h.prefixes (i :: s) (List.cons_prefix_cons.2 ⟨rfl, hs⟩)
      rw [hcount s, hcount s] at hprefix
      omega
    · have htotal := h.total
      rw [hcount is, hcount is] at htotal
      omega
  · intro h
    refine ⟨fun s hs => ?_, ?_⟩
    · rcases List.prefix_cons_iff.1 hs with rfl | ⟨t, rfl, ht⟩
      · simp
      · have hprefix := h.prefixes t ht
        rw [hcount t, hcount t]
        omega
    · have htotal := h.total
      rw [hcount is, hcount is]
      omega

@[simp]
theorem closing_nil_iff {depth : Nat} : Closing depth [] ↔ depth = 0 := by
  constructor
  · intro h
    simpa using h.total
  · rintro rfl
    exact ⟨by simp, by simp⟩

@[simp]
theorem closing_loopOpen_iff {depth : Nat} {is : List Instruction} :
    Closing depth (.loopOpen :: is) ↔ Closing (depth + 1) is :=
  closing_cons_iff (by simp)

@[simp]
theorem closing_loopClose_iff {depth : Nat} {is : List Instruction} :
    Closing (depth + 1) (.loopClose :: is) ↔ Closing depth is :=
  closing_cons_iff (by simp)

@[simp]
theorem not_closing_loopClose {is : List Instruction} : ¬ Closing 0 (.loopClose :: is) := by
  intro h
  have hprefix := h.prefixes [.loopClose] (by simp)
  simp at hprefix

theorem closing_simple_iff {depth : Nat} {i : Instruction} {is : List Instruction}
    (plain : i.isLoop = false) : Closing depth (i :: is) ↔ Closing depth is := by
  apply closing_cons_iff
  cases i <;> first | rfl | cases plain

/-! ## Balance means being written out of a tree -/

namespace Block

/-- A block in front of a program changes nothing about the loops that are open after it. -/
theorem closing_flatten_append {depth : Nat} (b : Block) {is : List Instruction} :
    Closing depth (b.flatten ++ is) ↔ Closing depth is := by
  induction b generalizing depth is with
  | done => rfl
  | simple i plain rest ih => rw [flatten, List.cons_append, closing_simple_iff plain, ih]
  | loop body rest ihBody ihRest =>
      rw [flatten, List.cons_append, List.append_assoc, closing_loopOpen_iff, ihBody,
        List.cons_append, closing_loopClose_iff, ihRest]

/-- The tokens of a block inside of loops, together with what comes after the block in each of
them, innermost loop first. -/
def flattenInside (b : Block) (afters : List Block) : List Instruction :=
  b.flatten ++ afters.flatMap fun after => .loopClose :: after.flatten

/-- A program that closes all open loops falls into blocks between them. -/
theorem exists_flattenInside_of_closing {depth : Nat} {is : List Instruction}
    (h : Closing depth is) :
    ∃ (b : Block) (afters : List Block), afters.length = depth ∧ b.flattenInside afters = is := by
  induction is generalizing depth with
  | nil =>
      rw [closing_nil_iff] at h
      exact ⟨done, [], h.symm, rfl⟩
  | cons i is ih =>
      by_cases plain : i.isLoop = false
      · obtain ⟨b, afters, hlength, hflat⟩ := ih ((closing_simple_iff plain).1 h)
        exact ⟨simple i plain b, afters, hlength, by simp [← hflat, flattenInside, flatten]⟩
      · cases i with
        | loopOpen =>
            -- The innermost of the loops open further on is the one that begins here.
            obtain ⟨body, afters, hlength, hflat⟩ := ih (closing_loopOpen_iff.1 h)
            cases afters with
            | nil => cases hlength
            | cons rest afters =>
                refine ⟨loop body rest, afters, Nat.succ.inj hlength, ?_⟩
                simp [← hflat, flattenInside, flatten]
        | loopClose =>
            cases depth with
            | zero => exact absurd h not_closing_loopClose
            | succ depth =>
                obtain ⟨b, afters, hlength, hflat⟩ := ih (closing_loopClose_iff.1 h)
                exact ⟨done, b :: afters, by simp [hlength], by simp [← hflat, flattenInside, flatten]⟩
        | _ => exact absurd rfl plain

/-- A flat program is balanced exactly when it is written out of a tree. -/
theorem balanced_iff_exists_flatten {is : List Instruction} :
    Balanced is ↔ ∃ b : Block, b.flatten = is := by
  rw [balanced_iff_closing]
  constructor
  · intro h
    obtain ⟨b, afters, hlength, hflat⟩ := exists_flattenInside_of_closing h
    rw [List.length_eq_zero_iff.1 hlength] at hflat
    exact ⟨b, by simpa [flattenInside] using hflat⟩
  · rintro ⟨b, rfl⟩
    rw [← List.append_nil b.flatten, closing_flatten_append]
    exact closing_nil_iff.2 rfl

theorem balanced_flatten (b : Block) : Balanced b.flatten :=
  balanced_iff_exists_flatten.2 ⟨b, rfl⟩

end Block

end CowLang
