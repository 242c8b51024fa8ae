import CowLang.Program
/-!
# Pairing loop instructions

Every `MOO` of a program is paired with the `moo` that closes it, as brackets are.  The pairing is
a table from token indices to token indices, built once before a program runs.
-/

namespace CowLang

/-- Why a program has no pairing of its loop instructions. -/
inductive LoopError where
  /-- The `MOO` at `index` is never closed. -/
  | unmatchedOpen (index : Nat) (span : Span)
  /-- The `moo` at `index` closes nothing. -/
  | unmatchedClose (index : Nat) (span : Span)
deriving DecidableEq, Repr, Inhabited

namespace LoopError

/-- The wording of the error. -/
def message : LoopError → String
  | unmatchedOpen index span =>
    s!"Unmatched {Instruction.loopOpen.spelling} at token {index} ({span.text})"
  | unmatchedClose index span =>
    s!"Unmatched {Instruction.loopClose.spelling} at token {index} ({span.text})"

end LoopError

/-- For each token index the index of its partner, if the token opens or closes a loop. -/
structure LoopTable where
  /-- The partner of each token. -/
  targets : Array (Option Nat)
  /-- The number of pairs. -/
  size : Nat
deriving DecidableEq, Repr, Inhabited

namespace LoopTable

/-- The table without entries. -/
def empty : LoopTable := ⟨#[], 0⟩

/-- Whether no two tokens are partners. -/
def isEmpty (t : LoopTable) : Bool := t.size == 0

/-- The partner of the token at an index. -/
def target? (t : LoopTable) (index : Nat) : Option Nat :=
  (t.targets[index]?).join

/-- Records that `first` and `last` are partners. -/
def pair (t : LoopTable) (first last : Nat) : LoopTable :=
  match t with
  | ⟨targets, size⟩ =>
    ⟨(targets.setIfInBounds first (some last)).setIfInBounds last (some first), size + 1⟩

/-- The pairs, opening index first, ordered by opening index. -/
def pairs (t : LoopTable) : List (Nat × Nat) :=
  t.targets.toList.zipIdx.filterMap fun (target, index) =>
    match target with
    | some close => if index < close then some (index, close) else none
    | none => none

/-- Goes through the tokens from `index` on.  The loops still open are in `pending`, innermost
first. -/
def resolveLoop (p : Program) (index : Nat) (pending : List Nat) (t : LoopTable) :
    List Instruction → Except LoopError LoopTable
  | [] =>
    match pending with
    | [] => .ok t
    | innermost :: _ => .error (.unmatchedOpen innermost (p.spanAt innermost))
  | .loopOpen :: rest => resolveLoop p (index + 1) (index :: pending) t rest
  | .loopClose :: rest =>
    match pending with
    | [] => .error (.unmatchedClose index (p.spanAt index))
    | innermost :: outer => resolveLoop p (index + 1) outer (t.pair innermost index) rest
  | _ :: rest => resolveLoop p (index + 1) pending t rest

/-- The pairing of a program's loop instructions. -/
def ofProgram (p : Program) : Except LoopError LoopTable :=
  resolveLoop p 0 [] ⟨Array.replicate p.size none, 0⟩ p.instructions

end LoopTable

end CowLang
