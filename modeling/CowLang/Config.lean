import CowLang.Duration
/-!
# How a program is to be run

A `Config` fixes the length of the tape, what happens at the ends of the tape and of the range of
a cell, whether `MMM` is enabled, and how long a run may take.  Every choice has a name, under
which configuration files refer to it.
-/

namespace CowLang

/-- A type with finitely many named values. -/
class Choice (α : Type) where
  /-- The values in the order in which they are offered. -/
  all : List α
  /-- The name of a value. -/
  name : α → String

/-- The value with a given name. -/
def Choice.ofName? {α : Type} [Choice α] (text : String) : Option α :=
  (Choice.all : List α).find? fun value => Choice.name value == text

/-- What happens when the pointer would leave the tape. -/
inductive PointerPolicy where
  /-- The run fails. -/
  | strict
  /-- The pointer goes on at the other end. -/
  | wrap
deriving DecidableEq, Repr

instance : Inhabited PointerPolicy where
  default := .strict

instance : Choice PointerPolicy where
  all := [.strict, .wrap]
  name
    | .strict => "strict"
    | .wrap => "wrap"

/-- What happens when a zero cell is decremented. -/
inductive UnderflowPolicy where
  /-- The run fails. -/
  | strict
  /-- The cell becomes 255. -/
  | wrap
deriving DecidableEq, Repr

instance : Inhabited UnderflowPolicy where
  default := .strict

instance : Choice UnderflowPolicy where
  all := [.strict, .wrap]
  name
    | .strict => "strict"
    | .wrap => "wrap"

/-- What happens when a cell that holds 255 is incremented. -/
inductive OverflowPolicy where
  /-- The cell becomes 0, so that cells stay bytes. -/
  | wrap
  /-- The cell becomes 256, and counting goes on up to the largest 32-bit number. -/
  | unbounded
deriving DecidableEq, Repr

instance : Inhabited OverflowPolicy where
  default := .wrap

instance : Choice OverflowPolicy where
  all := [.wrap, .unbounded]
  name
    | .wrap => "wrap"
    | .unbounded => "unbounded"

/-- Whether `MMM` uses the register. -/
inductive RegisterMode where
  /-- `MMM` does nothing. -/
  | inert
  /-- `MMM` moves values between the current cell and the register. -/
  | transfer
deriving DecidableEq, Repr

instance : Inhabited RegisterMode where
  default := .inert

instance : Choice RegisterMode where
  all := [.inert, .transfer]
  name
    | .inert => "inert"
    | .transfer => "transfer"

/-- The length of a tape for which none is given. -/
def Config.defaultTapeLen : Nat := 30000

/-- The step budget where none is given. -/
def Config.defaultMaxSteps : Option Nat := some 10000000

/-- How a program is to be run. -/
structure Config where
  /-- The number of cells on the tape. -/
  tapeLen : Nat := Config.defaultTapeLen
  /-- What happens at the ends of the tape. -/
  pointerPolicy : PointerPolicy := .strict
  /-- What happens below zero. -/
  underflowPolicy : UnderflowPolicy := .strict
  /-- What happens above 255. -/
  overflowPolicy : OverflowPolicy := .wrap
  /-- Whether `MMM` is enabled. -/
  registerMode : RegisterMode := .inert
  /-- How many steps a run may take, if that is limited. -/
  maxSteps : Option Nat := Config.defaultMaxSteps
  /-- How much time a run may take, if that is limited. -/
  timeout : Option Duration := none
deriving DecidableEq, Repr, Inhabited

namespace Config

/-- The configuration whose every setting has its usual value. -/
def standard : Config := {}

/-- Makes the pointer and the cells wrap around at both ends of their ranges. -/
def withWraparound (config : Config) : Config :=
  { config with pointerPolicy := .wrap, underflowPolicy := .wrap, overflowPolicy := .wrap }

/-- The usual configuration with wraparound. -/
def permissive : Config := standard.withWraparound

/-- Why a configuration cannot be used. -/
inductive Defect where
  /-- The tape has no cells. -/
  | noTape
  /-- The step budget allows no step. -/
  | noBudget
deriving DecidableEq, Repr, Inhabited

/-- The wording of a defect. -/
def Defect.message : Defect → String
  | .noTape => "tape_len must be at least 1"
  | .noBudget => "max_steps must be positive, use null to disable"

/-- The first defect of a configuration; the tape is looked at first. -/
def defect? (config : Config) : Option Defect :=
  if config.tapeLen = 0 then some .noTape
  else if config.maxSteps = some 0 then some .noBudget
  else none

/-- Hands on a configuration that can be used. -/
def validate (config : Config) : Except Defect Config :=
  match config.defect? with
  | some defect => .error defect
  | none => .ok config

end Config

end CowLang
