import CowLang.Decimal.Shortest
/-!
# The text of a floating-point number

A number is written with the fewest digits that read back as the same number.  It is written with
a point between -5 and 15 as the power of ten of its leading digit, and with that power behind
an `e` otherwise.
-/

namespace CowLang.Decimal

/-- The smallest power of ten of the leading digit that is written without an `e`. -/
def lowestPlain : Int := -5

/-- The largest power of ten of the leading digit that is written without an `e`. -/
def highestPlain : Int := 15

/-- The digits of a decimal, without zeros at their end. -/
def significant (d : Decimal) : List Char :=
  let digits := Nat.toDigits 10 d.digits
  let kept := (digits.reverse.dropWhile (· == '0')).reverse
  if kept.isEmpty then ['0'] else kept

/-- Digits with a point, where `power` is the power of ten of the first of them. -/
def plain (digits : List Char) (power : Int) : List Char :=
  match power with
  | .negSucc p => '0' :: '.' :: List.replicate p '0' ++ digits
  | .ofNat p =>
    if digits.length ≤ p + 1 then digits ++ List.replicate (p + 1 - digits.length) '0' ++ ['.', '0']
    else digits.take (p + 1) ++ '.' :: digits.drop (p + 1)

/-- Digits with a power of ten, of which the first digit is a multiple. -/
def scientific (digits : List Char) (power : Int) : List Char :=
  let mantissa :=
    match digits with
    | first :: second :: rest => first :: '.' :: second :: rest
    | _ => digits
  let sign := if power < 0 then '-' else '+'
  mantissa ++ 'e' :: sign :: Nat.toDigits 10 power.natAbs

/-- The text of a positive number. -/
def positiveText (x : Binary) : List Char :=
  let d := x.shortest
  let power := d.exponent + ((Nat.toDigits 10 d.digits).length - 1 : Nat)
  if lowestPlain ≤ power ∧ power ≤ highestPlain then plain (significant d) power
  else scientific (significant d) power

/-- The bit that is set in a number below zero. -/
def signBit : Nat := 0x8000000000000000

/-- The text of a finite number. -/
def floatText (x : Float) : String :=
  let bits := x.toBits.toNat
  let size := bits % signBit
  let text := if size = 0 then ['0', '.', '0'] else positiveText (.ofBits size)
  String.ofList (if bits < signBit then text else '-' :: text)

end CowLang.Decimal
