import CowLang.Bundled
import CowLang.Error
import CowLang.Execution
/-!
# Fingerprints of texts

The fingerprint of a text is a colour: the checksum program is run on the text, and the code point
of the first character that it prints is taken as an angle of hue.  Each sixth of the circle is a
face of a cube.

The checksum reads every character at most once and goes round its inner loop at most 255 times
for each, so `checksumSteps` steps are always enough.
-/

namespace CowLang

/-- A colour derived from the output of a program. -/
structure Fingerprint where
  /-- The code point of the first character of the output. -/
  byte : Nat
  /-- The hue in degrees. -/
  hue : Nat
  /-- The face of the cube, from 0 to 5. -/
  face : Nat
deriving DecidableEq, Repr, Inhabited

namespace Fingerprint

/-- The saturation of every fingerprint, in percent. -/
def saturation : Nat := 90

/-- The lightness of every fingerprint, in percent. -/
def lightness : Nat := 85

/-- The number of faces of the cube. -/
def faces : Nat := 6

/-- The fingerprint made from a given code point. -/
def ofCodePoint (byte : Nat) : Fingerprint where
  byte := byte
  hue := byte % 360
  face := byte % 360 / (360 / faces)

/-- The fingerprint of a text that has none of its own. -/
def default : Fingerprint := ⟨0, 0, 0⟩

/-- The fingerprint of an output; an empty output has none. -/
def ofOutput? (output : String) : Option Fingerprint :=
  match output.toList with
  | c :: _ => some (ofCodePoint c.toNat)
  | [] => none

/-- The colour in the notation of style sheets. -/
def css (f : Fingerprint) : String :=
  s!"hsl({f.hue} {saturation}% {lightness}%)"

/-- The configuration under which the checksum is run: the usual one without a step budget. -/
def config : Config := { Config.standard with maxSteps := none }

/-- A number of steps that the checksum of a text never reaches. -/
def checksumSteps (text : String) : Nat :=
  16 + 1278 * text.length

/-- What the checksum of a text prints. -/
def checksum (text : String) : Except Error String :=
  match Executable.ofSource Bundled.checksum.source with
  | .error e => .error (.loops e)
  | .ok x =>
    match x.advance config (fun _ => 0) (checksumSteps text) (Executable.initial config text) with
    | .finished machine => .ok machine.output
    | .failed fault => .error (.fault fault)
    | .running _ => .error (.fault (.stepLimitExceeded (checksumSteps text)))

/-- The fingerprint of a text. -/
def ofText (text : String) : Except Error (Option Fingerprint) :=
  (checksum text).map ofOutput?

/-- The fingerprint of a card, which is that of its title and description taken together.  A card
without a fingerprint of its own gets the default one. -/
def ofCard (title description : String) : Fingerprint :=
  match ofText (title ++ description) with
  | .ok (some fingerprint) => fingerprint
  | .ok none => default
  | .error _ => default

end Fingerprint

end CowLang
