import CowLang.Duration
/-!
# What can go wrong while a program runs

A run that fails names the token at which it failed, counted from zero, and no output is kept.
-/

namespace CowLang

/-- Why a run was given up. -/
inductive Fault where
  /-- The pointer would have passed the last of `tapeLen` cells. -/
  | pointerOverflow (token tapeLen : Nat)
  /-- The pointer would have gone left of the first cell. -/
  | pointerUnderflow (token : Nat)
  /-- A zero cell would have been decremented. -/
  | cellUnderflow (token pointer : Nat)
  /-- A cell would have passed the largest value. -/
  | cellOverflow (token pointer : Nat)
  /-- The step budget was used up before the program ended. -/
  | stepLimitExceeded (limit : Nat)
  /-- The time limit had passed when it was looked at. -/
  | deadlineExceeded (timeout : Duration) (steps : Nat)
  /-- The loop table says nothing about the token; it was built for another program. -/
  | unresolvedJump (token : Nat)
deriving DecidableEq, Repr, Inhabited

namespace Fault

/-- The wording of a fault. -/
def message : Fault → String
  | pointerOverflow token tapeLen =>
    s!"Pointer moved past the end of the tape ({tapeLen} cells) at token {token}"
  | pointerUnderflow token => s!"Pointer moved left of cell 0 at token {token}"
  | cellUnderflow token pointer => s!"Cell {pointer} decremented below zero at token {token}"
  | cellOverflow token pointer =>
    s!"Cell {pointer} exceeded the maximum cell value at token {token}"
  | stepLimitExceeded limit => s!"Step limit of {limit} exceeded"
  | deadlineExceeded timeout steps => s!"Deadline of {timeout.text} exceeded after {steps} steps"
  | unresolvedJump token => s!"No jump target for loop token {token}"

end Fault

end CowLang
