import CowLang.Json.Error
/-!
# Numbers in JSON texts

A number without a point and without an exponent is read as a whole number as long as it fits into
64 bits.  Any other number is a floating-point number: its digits are collected into a whole number
of 64 bits, later digits being dropped, and this number is then scaled by a power of ten.
-/

namespace CowLang.Json

/-- The number that a text denotes. -/
inductive Number where
  /-- A whole number from 0 on. -/
  | natural (value : Nat)
  /-- A whole number below 0, given without its sign. -/
  | negative (size : Nat)
  /-- Any other number. -/
  | float (value : Float)
deriving DecidableEq, Inhabited

/-- A number as something that was found. -/
def Number.found : Number → Found
  | natural value => .natural value
  | negative size => .negative size
  | float value => .float value

namespace Number

/-- The largest number of 64 bits. -/
def maxWord : Nat := 0xFFFFFFFFFFFFFFFF

/-- The size of the smallest number of 64 bits with a sign. -/
def maxNegative : Nat := 0x8000000000000000

/-- The largest exponent that is read exactly. -/
def maxExponent : Nat := 0x7FFFFFFF

/-- Appends digits to a number up to a bound; answers with the number of digits left over. -/
def collect (bound value : Nat) : List Nat → Nat × Nat
  | [] => (value, 0)
  | d :: digits =>
    if value * 10 + d ≤ bound then collect bound (value * 10 + d) digits
    else (value, digits.length + 1)

/-- A power of ten. -/
def powerOfTen (n : Nat) : Float := Float.ofScientific 1 false n

/-- Divides by a power of ten, in steps of the largest one that there is. -/
def divide (fuel : Nat) (x : Float) (n : Nat) : Float :=
  match fuel with
  | 0 => x
  | fuel + 1 =>
    if n ≤ 308 then x / powerOfTen n
    else if x == 0 then x
    else divide fuel (x / powerOfTen 308) (n - 308)

/-- The size `value * 10 ^ exponent`, if it is in range.  Three divisions by the largest power of ten
turn any number into zero, so four are never needed. -/
def scale? (value : Nat) (exponent : Int) : Option Float :=
  let x := Float.ofNat value
  match exponent with
  | .negSucc n => some (divide 4 x (n + 1))
  | .ofNat n =>
    if n ≤ 308 then
      if (x * powerOfTen n).isInf then none else some (x * powerOfTen n)
    else if x == 0 then some x
    else none

/-- Gives a size its sign. -/
def withSign (isNegative : Bool) (x : Float) : Float :=
  if isNegative then -x else x

/-- A floating-point number whose digits have been read. -/
def finish (isNegative : Bool) (value : Nat) (exponent : Int) : Reader Number := fun text =>
  match scale? value exponent with
  | some x => .ok (.float (withSign isNegative x), text)
  | none => .error ⟨.numberOutOfRange, .facing text⟩

/-- Reads the exponent after an `e`, for a number whose digits so far are `value * 10 ^ start`.  An
exponent that is too large is noticed at the digit that makes it so. -/
def readExponent (isNegative : Bool) (value : Nat) (start : Int) : Reader Number := fun text =>
  let (isDown, text) :=
    match text with
    | .char '+' :: rest => (false, rest)
    | .char '-' :: rest => (true, rest)
    | _ => (false, text)
  match splitDigits text with
  | ([], []) => .error ⟨.endOfValue, .last⟩
  | ([], rest) => .error ⟨.invalidNumber, .after 1 rest⟩
  | (digits, rest) =>
    match collect maxExponent 0 digits with
    | (size, 0) => finish isNegative value (if isDown then start - size else start + size) rest
    | (_, left + 1) =>
      if value ≠ 0 ∧ isDown = false then
        .error ⟨.numberOutOfRange, .after (digits.length - left) text⟩
      else .ok (.float (withSign isNegative 0), rest)

/-- Reads what may follow the digits of a floating-point number. -/
def readScale (isNegative : Bool) (value : Nat) (start : Int) : Reader Number
  | .char 'e' :: rest => readExponent isNegative value start rest
  | .char 'E' :: rest => readExponent isNegative value start rest
  | text => finish isNegative value start text

/-- Reads the digits after the point, of which there must be one. -/
def readFraction (isNegative : Bool) (value : Nat) (start : Int) : Reader Number := fun text =>
  match splitDigits text with
  | ([], []) => .error ⟨.endOfValue, .last⟩
  | ([], rest) => .error ⟨.invalidNumber, .after 1 rest⟩
  | (digits, rest) =>
    match collect maxWord value digits with
    | (value, left) => readScale isNegative value (start - (digits.length - left : Nat)) rest

/-- A whole number.  Minus zero and sizes beyond 63 bits are left to floating-point numbers. -/
def whole (isNegative : Bool) (value : Nat) : Number :=
  if isNegative then
    if value = 0 ∨ maxNegative < value then .float (-(Float.ofNat value)) else .negative value
  else .natural value

/-- Reads what may follow the digits of a whole number. -/
def readTail (isNegative : Bool) (digits : List Nat) : Reader Number := fun text =>
  match collect maxWord 0 digits with
  | (value, left) =>
    match text with
    | .char '.' :: rest => readFraction isNegative value left rest
    | .char 'e' :: _ => readScale isNegative value left text
    | .char 'E' :: _ => readScale isNegative value left text
    | _ =>
      if left = 0 then .ok (whole isNegative value, text)
      else readScale isNegative value left text

/-- Reads a number without its sign.  Only a number below one starts with a zero. -/
def readUnsigned (isNegative : Bool) : Reader Number := fun text =>
  match splitDigits text with
  | ([], []) => .error ⟨.endOfValue, .last⟩
  | ([], rest) => .error ⟨.invalidNumber, .after 1 rest⟩
  | (0 :: _ :: _, _) => .error ⟨.invalidNumber, .after 2 text⟩
  | (digits, rest) => readTail isNegative digits rest

/-- Reads a number. -/
def read : Reader Number
  | .char '-' :: rest => readUnsigned true rest
  | text => readUnsigned false text

/-- Passes over a number whose value is not wanted. -/
def skip (text : List Symbol) : Except Stop (List Symbol) :=
  let text :=
    match text with
    | .char '-' :: rest => rest
    | _ => text
  match splitDigits text with
  | ([], rest) => .error ⟨.invalidNumber, .after 1 rest⟩
  | (0 :: _ :: _, _) => .error ⟨.invalidNumber, .after 2 text⟩
  | (_, .char '.' :: rest) =>
    match splitDigits rest with
    | ([], rest) => .error ⟨.invalidNumber, .after 1 rest⟩
    | (_, rest) => skipExponent rest
  | (_, rest) => skipExponent rest
where
  /-- Passes over the exponent, if there is one. -/
  skipExponent (text : List Symbol) : Except Stop (List Symbol) :=
    match text with
    | .char 'e' :: rest => skipPower rest
    | .char 'E' :: rest => skipPower rest
    | _ => .ok text
  /-- Passes over the digits of an exponent, of which there must be one. -/
  skipPower (text : List Symbol) : Except Stop (List Symbol) :=
    let text :=
      match text with
      | .char '+' :: rest => rest
      | .char '-' :: rest => rest
      | _ => text
    match splitDigits text with
    | ([], rest) => .error ⟨.invalidNumber, .after 1 rest⟩
    | (_, rest) => .ok rest

end Number

end CowLang.Json
