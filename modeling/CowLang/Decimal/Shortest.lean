/-!
# The shortest decimal of a binary number

A floating-point number stands for every real number that rounds to it.  `shortest` finds, among
the decimals in that interval, one with the fewest digits, and of those the one nearest to the
number itself.

The number is `mantissa * 2 ^ exponent`, and all comparisons are made between natural numbers after
multiplying out the denominators.
-/

namespace CowLang

/-- A positive decimal number: `digits * 10 ^ exponent`. -/
structure Decimal where
  /-- The significant digits as one number. -/
  digits : Nat
  /-- The power of ten by which they are multiplied. -/
  exponent : Int
deriving DecidableEq, Repr, Inhabited

namespace Decimal

/-- A positive binary floating-point number: `mantissa * 2 ^ exponent`. -/
structure Binary where
  /-- The significant bits. -/
  mantissa : Nat
  /-- The power of two by which they are multiplied. -/
  exponent : Int
deriving DecidableEq, Repr, Inhabited

/-- The leading bit of a mantissa of full length, which the 64-bit format leaves out. -/
def Binary.hiddenBit : Nat := 0x10000000000000

/-- The positive number with the given bits in the 64-bit format, the sign bit left out. -/
def Binary.ofBits (bits : Nat) : Binary :=
  let fraction := bits % hiddenBit
  let biased := bits / hiddenBit % 0x800
  if biased = 0 then ⟨fraction, -1074⟩ else ⟨hiddenBit + fraction, Int.ofNat biased - 1075⟩

/-- A fraction of natural numbers. -/
structure Ratio where
  num : Nat
  den : Nat

namespace Ratio

/-- The fraction `n * base ^ exponent`. -/
def scaled (n base : Nat) (exponent : Int) : Ratio :=
  match exponent with
  | .ofNat e => ⟨n * Nat.pow base e, 1⟩
  | .negSucc e => ⟨n, Nat.pow base (e + 1)⟩

/-- Whether one fraction is at most another. -/
def le (a b : Ratio) : Bool := a.num * b.den ≤ b.num * a.den

/-- Whether one fraction is below another. -/
def lt (a b : Ratio) : Bool := a.num * b.den < b.num * a.den

/-- The distance between two fractions. -/
def distance (a b : Ratio) : Ratio :=
  ⟨(a.num * b.den - b.num * a.den) + (b.num * a.den - a.num * b.den), a.den * b.den⟩

/-- The whole part of a fraction in units of `10 ^ exponent`. -/
def floorIn (a : Ratio) (exponent : Int) : Nat :=
  match exponent with
  | .ofNat e => a.num / (a.den * Nat.pow 10 e)
  | .negSucc e => a.num * Nat.pow 10 (e + 1) / a.den

end Ratio

namespace Binary

/-- The number itself. -/
def value (x : Binary) : Ratio := .scaled x.mantissa 2 x.exponent

/-- The middle between the number and the next smaller one, which is nearer when the mantissa is
the smallest of its range. -/
def lower (x : Binary) : Ratio :=
  if x.mantissa = hiddenBit ∧ -1074 < x.exponent then .scaled (4 * x.mantissa - 1) 2 (x.exponent - 2)
  else .scaled (2 * x.mantissa - 1) 2 (x.exponent - 1)

/-- The middle between the number and the next larger one. -/
def upper (x : Binary) : Ratio := .scaled (2 * x.mantissa + 1) 2 (x.exponent - 1)

/-- Whether a decimal rounds to the number; the middles do when the mantissa is even. -/
def isReadFrom (x : Binary) (d : Decimal) : Bool :=
  let v := Ratio.scaled d.digits 10 d.exponent
  if x.mantissa % 2 = 0 then x.lower.le v && v.le x.upper else x.lower.lt v && v.lt x.upper

/-- The power of ten of the leading digit.  The search goes down from one that is too large. -/
def leadingPower (x : Binary) : Int :=
  go 640 309
where
  /-- Looks at `power` and then at those below it. -/
  go : Nat → Int → Int
    | 0, power => power
    | fuel + 1, power => if 0 < x.value.floorIn power then power else go fuel (power - 1)

/-- The nearest decimal with `count` digits that rounds to the number, if one does. -/
def withDigits? (x : Binary) (power : Int) (count : Nat) : Option Decimal :=
  let exponent := power - (count - 1 : Nat)
  let below : Decimal := ⟨x.value.floorIn exponent, exponent⟩
  let above : Decimal := ⟨below.digits + 1, exponent⟩
  match x.isReadFrom below, x.isReadFrom above with
  | true, false => some below
  | false, true => some above
  | false, false => none
  | true, true =>
    let down := x.value.distance (.scaled below.digits 10 exponent)
    let up := x.value.distance (.scaled above.digits 10 exponent)
    if down.lt up || (down.le up && below.digits % 2 = 0) then some below else some above

/-- The decimal with the fewest digits that rounds to the number; seventeen are always enough. -/
def shortest (x : Binary) : Decimal :=
  ((List.range 17).findSome? fun n => x.withDigits? x.leadingPower (n + 1)).getD
    ⟨x.value.floorIn (x.leadingPower - 16), x.leadingPower - 16⟩

end Binary

end Decimal

end CowLang
