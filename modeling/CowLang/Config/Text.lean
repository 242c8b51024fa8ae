import CowLang.Config.Reading
/-!
# Writing configurations

A configuration is written as a JSON object without blanks, with the settings in their fixed order.
The time limit is written in whole milliseconds of 64 bits; what goes beyond is lost.
-/

namespace CowLang

namespace Config

open Json

/-- A number, or `null` for none. -/
def numberText : Option Nat → String
  | some n => Nat.repr n
  | none => "null"

/-- A choice, by its name in quotes. -/
def choiceText {α : Type} [Choice α] (value : α) : String :=
  "\"" ++ Choice.name value ++ "\""

/-- The value of a setting. -/
def settingText (config : Config) : Key → String
  | .tapeLen => numberText (some config.tapeLen)
  | .pointerPolicy => choiceText config.pointerPolicy
  | .underflowPolicy => choiceText config.underflowPolicy
  | .overflowPolicy => choiceText config.overflowPolicy
  | .registerMode => choiceText config.registerMode
  | .maxSteps => numberText config.maxSteps
  | .timeout => numberText (config.timeout.map fun t => t.milliseconds % (Number.maxWord + 1))

/-- The text of a configuration. -/
def text (config : Config) : String :=
  "\x7b" ++
    String.intercalate ","
      ((Choice.all : List Key).map fun key => choiceText key ++ ":" ++ config.settingText key) ++
    "\x7d"

end Config

end CowLang
