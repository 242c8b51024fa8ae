import CowLang.Proofs.Correspondence
import CowLang.Proofs.Renumbering
import CowLang.Proofs.Structured
/-!
# Programs with simple instructions replaced

In place of a simple instruction a program may have a block, and an empty block erases it.  The other tokens,
among them all ends of loops, are found behind each other as before, only under other numbers.  The scan
passes over a block as it does over a simple instruction, so the loops are paired as before, and a loop that
is not closed is reported as before.  At a token that has been kept, a step leads where it did.

Main statements: `Replaces.lt_of_lt` (kept tokens stay in order), `Replaces.resolveLoop_corresponds` (both
programs are scanned alike), `Replaces.balanced_iff` and `Replaces.ofProgram_corresponds` (so they have
corresponding tables or errors), `Replaces.agreesAt` and `Replaces.next_renumber` (a step at a kept token).
-/

namespace CowLang

variable {f : Nat → Nat} {p q : Program} {i j : Nat}

/-! ## Kept and replaced tokens -/

/-- The token at an index of `p` is the one of `q` at the number that `f` gives the index, and the next
tokens follow. -/
def Keeps (f : Nat → Nat) (p q : Program) (i : Nat) : Prop :=
  ∃ t, p.tokens[i]? = some t ∧ q.tokens[f i]? = some t ∧ f (i + 1) = f i + 1

/-- The token at an index of `p` is a simple instruction, and `q` has a block there. -/
def Exchanges (f : Nat → Nat) (p q : Program) (i : Nat) : Prop :=
  ∃ t, p.tokens[i]? = some t ∧ t.instruction.isLoop = false ∧
    ∃ b : Block, q.instructions.drop (f i) = b.flatten ++ q.instructions.drop (f (i + 1)) ∧
      f (i + 1) = f i + b.size

/-- A token that is erased has an empty block in its place. -/
theorem Exchanges.of_erased {t : Token} (ht : p.tokens[i]? = some t)
    (plain : t.instruction.isLoop = false) (hnext : f (i + 1) = f i) : Exchanges f p q i :=
  ⟨t, ht, plain, .done, by rw [hnext]; rfl, hnext⟩

/-- The program `q` is `p` with blocks in place of simple instructions; what `p` has at index `i` begins in
`q` at index `f i`. -/
structure Replaces (f : Nat → Nat) (p q : Program) : Prop where
  first : f 0 = 0
  behind : ∀ i, p.size ≤ i → q.size ≤ f i
  token : ∀ i, i < p.size → Keeps f p q i ∨ Exchanges f p q i

theorem Program.drop_instructions {t : Token} (h : p.tokens[i]? = some t) :
    p.instructions.drop i = t.instruction :: p.instructions.drop (i + 1) := by
  obtain ⟨hlt, rfl⟩ := Array.getElem?_eq_some_iff.1 h
  have hlength : i < p.instructions.length := by rwa [length_instructions]
  rw [List.drop_eq_getElem_cons hlength]
  simp [instructions]

theorem Keeps.lt_size (h : Keeps f p q i) : i < p.size ∧ f i < q.size := by
  obtain ⟨t, ht, ht', -⟩ := h
  exact ⟨(Array.getElem?_eq_some_iff.1 ht).1, (Array.getElem?_eq_some_iff.1 ht').1⟩

theorem Keeps.instruction?_eq (h : Keeps f p q i) : q.instruction? (f i) = p.instruction? i := by
  obtain ⟨t, ht, ht', -⟩ := h
  rw [Program.instruction?, Program.instruction?, ht, ht']

theorem Keeps.spanAt_eq (h : Keeps f p q i) : q.spanAt (f i) = p.spanAt i := by
  obtain ⟨t, ht, ht', -⟩ := h
  rw [Program.spanAt, Program.spanAt, Program.span?, Program.span?, ht, ht']

namespace Replaces

theorem le_succ (h : Replaces f p q) (hi : i < p.size) : f i ≤ f (i + 1) := by
  obtain ⟨t, -, -, hnext⟩ | ⟨t, -, -, b, -, hnext⟩ := h.token i hi
  · omega
  · omega

theorem le_of_le (h : Replaces f p q) (hij : i ≤ j) (hj : j ≤ p.size) : f i ≤ f j := by
  induction j, hij using Nat.le_induction with
  | base => exact le_rfl
  | succ j _ ih => exact (ih (Nat.le_of_succ_le hj)).trans (h.le_succ hj)

/-- Kept tokens stay in order. -/
theorem lt_of_lt (h : Replaces f p q) (hi : Keeps f p q i) (hij : i < j) (hj : j ≤ p.size) :
    f i < f j := by
  have hle : f (i + 1) ≤ f j := h.le_of_le hij hj
  obtain ⟨t, -, -, hnext⟩ := hi
  omega

theorem eq_iff (h : Replaces f p q) (hi : Keeps f p q i) (hj : Keeps f p q j) : f i = f j ↔ i = j := by
  constructor
  · intro heq
    rcases Nat.lt_trichotomy i j with hij | hij | hij
    · have hlt := h.lt_of_lt hi hij hj.lt_size.1.le
      omega
    · exact hij
    · have hlt := h.lt_of_lt hj hij hi.lt_size.1.le
      omega
  · rintro rfl
    rfl

theorem le_size (h : Replaces f p q) (hi : i ≤ p.size) : f i ≤ q.size := by
  induction i with
  | zero =>
      rw [h.first]
      exact Nat.zero_le _
  | succ i ih =>
      have hle := ih (Nat.le_of_succ_le hi)
      obtain hkeeps | ⟨t, -, -, b, hdrop, hnext⟩ := h.token i hi
      · have hlt := hkeeps.lt_size.2
        obtain ⟨t, -, -, hnext⟩ := hkeeps
        omega
      · have hlength := congrArg List.length hdrop
        simp only [List.length_drop, List.length_append, Block.length_flatten,
          Program.length_instructions] at hlength
        omega

/-- No end of a loop is replaced. -/
theorem keeps_of_isLoop (h : Replaces f p q) {instr : Instruction}
    (hi : p.instruction? i = some instr) (hloop : instr.isLoop = true) : Keeps f p q i := by
  rw [Program.instruction?] at hi
  split at hi
  · next t ht =>
      cases hi
      obtain hkeeps | ⟨t', ht', plain, -⟩ := h.token i (Array.getElem?_eq_some_iff.1 ht).1
      · exact hkeeps
      · rw [ht] at ht'
        cases ht'
        rw [hloop] at plain
        cases plain
  · cases hi

end Replaces

/-! ## The scan -/

/-- The index of the token that is not matched. -/
def LoopError.index : LoopError → Nat
  | .unmatchedOpen index _ => index
  | .unmatchedClose index _ => index

/-- The same error under another token number. -/
def LoopError.renumber (f : Nat → Nat) : LoopError → LoopError
  | .unmatchedOpen index span => .unmatchedOpen (f index) span
  | .unmatchedClose index span => .unmatchedClose (f index) span

/-- Tables as large as the two programs that give the kept tokens corresponding partners. -/
structure LoopTable.Mirrors (f : Nat → Nat) (p q : Program) (t t' : LoopTable) : Prop where
  size_eq : t.targets.size = p.size
  size_eq' : t'.targets.size = q.size
  target?_eq : ∀ i, Keeps f p q i → t'.target? (f i) = (t.target? i).map f

/-- What the scans of two programs come to: corresponding tables, or the same error about a token that was
kept. -/
inductive LoopTable.Corresponds (f : Nat → Nat) (p q : Program) :
    Except LoopError LoopTable → Except LoopError LoopTable → Prop where
  | ok {t t' : LoopTable} (h : LoopTable.Mirrors f p q t t') : Corresponds f p q (.ok t) (.ok t')
  | error {e : LoopError} (h : Keeps f p q e.index) :
      Corresponds f p q (.error e) (.error (e.renumber f))

namespace LoopTable.Mirrors

variable {t t' : LoopTable}

/-- Corresponding partners are recorded. -/
theorem pair (h : Replaces f p q) (hm : Mirrors f p q t t') {first last : Nat}
    (hfirst : Keeps f p q first) (hlast : Keeps f p q last) :
    Mirrors f p q (t.pair first last) (t'.pair (f first) (f last)) where
  size_eq := by rw [size_targets_pair, hm.size_eq]
  size_eq' := by rw [size_targets_pair, hm.size_eq']
  target?_eq := by
    intro k hk
    have hmin := hfirst.lt_size
    have hmax := hlast.lt_size
    rw [← hm.size_eq, ← hm.size_eq'] at hmin hmax
    rw [target?_pair hmin.2 hmax.2, target?_pair hmin.1 hmax.1]
    simp only [h.eq_iff hk hlast, h.eq_iff hk hfirst, hm.target?_eq k hk, apply_ite (Option.map f),
      Option.map_some]

/-- The loops of a block that replaces a token have no end at a token that was kept. -/
theorem fill (h : Replaces f p q) (hm : Mirrors f p q t t') (hi : i < p.size)
    (hreplaced : ¬ Keeps f p q i) {b : Block} (hnext : f (i + 1) = f i + b.size) :
    Mirrors f p q t (t'.fill (f i) b) where
  size_eq := hm.size_eq
  size_eq' := by rw [size_targets_fill, hm.size_eq']
  target?_eq := by
    intro k hk
    have hsize : f i + b.size ≤ t'.targets.size := by
      rw [hm.size_eq', ← hnext]
      exact h.le_size hi
    have houtside : f k < f i ∨ f i + b.size ≤ f k := by
      rcases Nat.lt_trichotomy k i with hki | rfl | hki
      · exact .inl (h.lt_of_lt hk hki hi.le)
      · exact absurd hk hreplaced
      · exact .inr (hnext ▸ h.le_of_le hki hk.lt_size.1.le)
    rw [target?_fill hsize, Block.partner?_eq_none_of_outside houtside, Option.none_or,
      hm.target?_eq k hk]

end LoopTable.Mirrors

namespace Replaces

/-- Both programs are scanned alike, from corresponding tokens on. -/
theorem resolveLoop_corresponds (h : Replaces f p q) (is : List Instruction) {pending : List Nat}
    {t t' : LoopTable} (his : p.instructions.drop i = is) (hpending : ∀ j ∈ pending, Keeps f p q j)
    (hm : LoopTable.Mirrors f p q t t') :
    LoopTable.Corresponds f p q (LoopTable.resolveLoop p i pending t is)
      (LoopTable.resolveLoop q (f i) (pending.map f) t' (q.instructions.drop (f i))) := by
  induction is generalizing i pending t t' with
  | nil =>
      have hend : q.instructions.drop (f i) = [] := by
        rw [List.drop_eq_nil_iff, Program.length_instructions] at his ⊢
        exact h.behind i his
      rw [hend]
      cases pending with
      | nil => exact .ok hm
      | cons innermost outer =>
          have hkeeps := hpending innermost List.mem_cons_self
          simp only [LoopTable.resolveLoop, List.map_cons, hkeeps.spanAt_eq]
          exact .error hkeeps
  | cons instr is ih =>
      have hi : i < p.size := by
        rw [← Program.length_instructions, ← Nat.not_le, ← List.drop_eq_nil_iff, his]
        exact List.cons_ne_nil _ _
      by_cases hkeeps : Keeps f p q i
      · obtain ⟨token, htoken, htoken', hnext⟩ := id hkeeps
        obtain ⟨rfl, hrest⟩ := List.cons.inj (his.symm.trans (Program.drop_instructions htoken))
        rw [Program.drop_instructions htoken', ← hnext]
        by_cases plain : token.instruction.isLoop = false
        · rw [LoopTable.resolveLoop_simple p i pending t plain,
            LoopTable.resolveLoop_simple q (f i) (pending.map f) t' plain, ← hnext]
          exact ih hrest.symm hpending hm
        · cases hinstr : token.instruction with
          | loopOpen =>
              rw [LoopTable.resolveLoop, LoopTable.resolveLoop, ← hnext, ← List.map_cons]
              exact ih hrest.symm (List.forall_mem_cons.2 ⟨hkeeps, hpending⟩) hm
          | loopClose =>
              cases pending with
              | nil =>
                  simp only [LoopTable.resolveLoop, List.map_nil, hkeeps.spanAt_eq]
                  exact .error hkeeps
              | cons innermost outer =>
                  obtain ⟨hinnermost, houter⟩ := List.forall_mem_cons.1 hpending
                  rw [List.map_cons, LoopTable.resolveLoop, LoopTable.resolveLoop, ← hnext]
                  exact ih hrest.symm houter (hm.pair h hinnermost hkeeps)
          | _ =>
              rw [hinstr] at plain
              exact absurd rfl plain
      · obtain ⟨token, htoken, plain, b, hdrop, hnext⟩ := (h.token i hi).resolve_left hkeeps
        obtain ⟨rfl, hrest⟩ := List.cons.inj (his.symm.trans (Program.drop_instructions htoken))
        rw [LoopTable.resolveLoop_simple p i pending t plain, hdrop,
          LoopTable.resolveLoop_flatten_append, ← hnext]
        exact ih hrest.symm hpending (hm.fill h hi hkeeps hnext)

/-- Both programs have corresponding tables, or the same error under another number. -/
theorem ofProgram_corresponds (h : Replaces f p q) :
    LoopTable.Corresponds f p q (LoopTable.ofProgram p) (LoopTable.ofProgram q) := by
  have hempty (n k : Nat) : LoopTable.target? ⟨Array.replicate n none, 0⟩ k = none := by
    rw [LoopTable.target?, Array.getElem?_replicate]
    split <;> rfl
  have hm : LoopTable.Mirrors f p q ⟨Array.replicate p.size none, 0⟩
      ⟨Array.replicate q.size none, 0⟩ :=
    ⟨Array.size_replicate, Array.size_replicate, fun i _ => by rw [hempty, hempty]; rfl⟩
  have hscan := h.resolveLoop_corresponds p.instructions List.drop_zero
    (List.forall_mem_nil (Keeps f p q)) hm
  rwa [h.first] at hscan

theorem balanced_iff (h : Replaces f p q) : Balanced p.instructions ↔ Balanced q.instructions := by
  rw [← LoopTable.exists_ofProgram_eq_ok_iff, ← LoopTable.exists_ofProgram_eq_ok_iff]
  have hcorresponds := h.ofProgram_corresponds
  generalize LoopTable.ofProgram p = result, LoopTable.ofProgram q = result' at hcorresponds ⊢
  cases hcorresponds with
  | ok hm => exact iff_of_true ⟨_, rfl⟩ ⟨_, rfl⟩
  | error h => exact iff_of_false nofun nofun

theorem ofProgram_eq_error (h : Replaces f p q) {e : LoopError}
    (he : LoopTable.ofProgram p = .error e) :
    LoopTable.ofProgram q = .error (e.renumber f) ∧ Keeps f p q e.index := by
  have hcorresponds := h.ofProgram_corresponds
  rw [he] at hcorresponds
  generalize LoopTable.ofProgram q = result at hcorresponds ⊢
  cases hcorresponds with
  | error hkeeps => exact ⟨rfl, hkeeps⟩

end Replaces

/-! ## Steps at kept tokens -/

/-- Partners are ends of loops. -/
theorem LoopTable.isLoop_of_target? {t : LoopTable} (h : LoopTable.ofProgram p = .ok t)
    (htarget : t.target? i = some j) :
    ∃ instr, p.instruction? j = some instr ∧ instr.isLoop = true := by
  obtain ⟨b, hb, rfl⟩ := LoopTable.ofProgram_eq_ok_iff.1 h
  rw [Block.target?_loopTable] at htarget
  obtain ⟨k, c, hc, ⟨-, rfl⟩ | ⟨-, rfl⟩⟩ := Block.exists_loopAt_of_partner? htarget
  · refine ⟨.loopClose, ?_, rfl⟩
    rw [Program.instruction?_eq_getElem?, ← hb, Nat.zero_add, hc.getElem?_close]
  · refine ⟨.loopOpen, ?_, rfl⟩
    rw [Program.instruction?_eq_getElem?, ← hb, Nat.zero_add, hc.getElem?_open]

namespace Replaces

open Executable

variable {x y : Executable} {config : Config} {clock : Clock} {s : State}

/-- At a kept token, both programs agree. -/
theorem agreesAt (h : Replaces f p q) (hx : Executable.ofProgram p = .ok x)
    (hy : Executable.ofProgram q = .ok y) (hi : Keeps f p q i) : AgreesAt f x y i := by
  obtain ⟨rfl, hxloops⟩ := ofProgram_eq_ok_iff.1 hx
  obtain ⟨rfl, hyloops⟩ := ofProgram_eq_ok_iff.1 hy
  have hcorresponds := h.ofProgram_corresponds
  rw [hxloops, hyloops] at hcorresponds
  cases hcorresponds with
  | ok hm =>
      refine ⟨hi.instruction?_eq, ?_, hm.target?_eq i hi, fun last hlast => ?_⟩
      · obtain ⟨-, -, -, hnext⟩ := hi
        exact hnext
      · obtain ⟨instr, hinstr, hloop⟩ := LoopTable.isLoop_of_target? hxloops hlast
        obtain ⟨-, -, -, hnext⟩ := h.keeps_of_isLoop hinstr hloop
        exact hnext

/-- A step at a kept token, or behind the end. -/
theorem next_renumber (h : Replaces f p q) (hx : Executable.ofProgram p = .ok x)
    (hy : Executable.ofProgram q = .ok y) (hs : Keeps f p q s.token ∨ p.size ≤ s.token) :
    y.next config clock (s.renumber f) = (x.next config clock s).renumber f := by
  obtain hkeeps | hbehind := hs
  · exact Executable.next_renumber (h.agreesAt hx hy hkeeps)
  · obtain ⟨rfl, -⟩ := ofProgram_eq_ok_iff.1 hx
    obtain ⟨rfl, -⟩ := ofProgram_eq_ok_iff.1 hy
    have hend : x.program.instruction? s.token = none := by
      rwa [Program.instruction?_eq_getElem?, List.getElem?_eq_none_iff, Program.length_instructions]
    have hend' : y.program.instruction? (s.renumber f).token = none := by
      rw [Program.instruction?_eq_getElem?, List.getElem?_eq_none_iff, Program.length_instructions]
      exact h.behind s.token hbehind
    simp only [next, hend, hend']
    rfl

end Replaces

/-- From two images of a state, whose steps are the images of its step, runs keep pace if its successor and
its result have corresponding images. -/
theorem Executable.paced_of_next {x y : Executable} {config : Config} {clock : Clock} {d : Nat}
    {R : State → State → Prop} {Q : Except Fault Machine → Except Fault Machine → Prop} {s s₀ s' : State}
    (hx : x.next config clock s = (x.next config clock s₀).map (Machine.later d))
    (hy : y.next config clock s' = (x.next config clock s₀).renumber f)
    (hrunning : ∀ s₁, x.next config clock s₀ = .running s₁ → R (s₁.later d) (s₁.renumber f))
    (hended : ∀ result, x.next config clock s₀ = .ofResult result →
      Q (result.map (Machine.later d)) (result.mapError (Fault.renumber f))) :
    Paced x y config clock R Q s s' := by
  have hends (result : Except Fault Machine) (hnext : x.next config clock s₀ = .ofResult result) :
      Paced x y config clock R Q s s' := by
    rw [hnext, Progress.map_ofResult] at hx
    rw [hnext, Progress.renumber_ofResult] at hy
    exact .ended (.of_next _ hx) (.of_next _ hy) (hended result hnext)
  cases hnext : x.next config clock s₀ with
  | running s₁ =>
      rw [hnext] at hx hy
      exact .progressed (.of_next hx) (.of_next hy) (hrunning s₁ hnext)
  | finished m => exact hends (.ok m) hnext
  | failed fault => exact hends (.error fault) hnext

end CowLang
