import CowLang.Config.Reading
import CowLang.Fault
import CowLang.LoopTable
/-!
# Everything that can go wrong

From a source text and a configuration to an output there are four kinds of failure; their wordings
start with the kind.
-/

namespace CowLang

/-- Why there is no output. -/
inductive Error where
  /-- The loop instructions of the program cannot be paired. -/
  | loops (error : LoopError)
  /-- The run was given up. -/
  | fault (fault : Fault)
  /-- There is no configuration. -/
  | config (error : ConfigError)
  /-- A file cannot be used. -/
  | file (error : FileError)
deriving DecidableEq, Inhabited

/-- The wording of the error. -/
def Error.message : Error → String
  | loops e => "Parse error: " ++ e.message
  | fault e => "Runtime error: " ++ e.message
  | config e => "Config error: " ++ e.message
  | file e => "IO error: " ++ e.message

end CowLang
