/-!
# Spans of time

A duration is a whole number of nanoseconds.  Configurations give it in milliseconds, and error
messages show it in the largest unit that is not below one.
-/

namespace CowLang

/-- A span of time. -/
structure Duration where
  /-- The length in nanoseconds. -/
  nanoseconds : Nat
deriving DecidableEq, Repr, Inhabited

namespace Duration

/-- A whole number of milliseconds. -/
def ofMilliseconds (n : Nat) : Duration := ⟨n * 1000000⟩

/-- A whole number of microseconds. -/
def ofMicroseconds (n : Nat) : Duration := ⟨n * 1000⟩

/-- The milliseconds that have fully passed. -/
def milliseconds (d : Duration) : Nat := d.nanoseconds / 1000000

/-- The decimal places of `part / 10 ^ places`, without the zeros at their end. -/
def decimals (places part : Nat) : List Char :=
  let digits := (Nat.toDigits 10 (Nat.pow 10 places + part)).tail
  (digits.reverse.dropWhile (· == '0')).reverse

/-- The text of `n / 10 ^ places` units, with as many decimal places as it needs. -/
def inUnit (n places : Nat) (unit : String) : String :=
  let size := Nat.pow 10 places
  match decimals places (n % size) with
  | [] => Nat.repr (n / size) ++ unit
  | digits => Nat.repr (n / size) ++ "." ++ String.ofList digits ++ unit

/-- The text of a duration in the largest unit of which it holds at least one. -/
def text (d : Duration) : String :=
  if 1000000000 ≤ d.nanoseconds then inUnit d.nanoseconds 9 "s"
  else if 1000000 ≤ d.nanoseconds then inUnit d.nanoseconds 6 "ms"
  else if 1000 ≤ d.nanoseconds then inUnit d.nanoseconds 3 "µs"
  else inUnit d.nanoseconds 0 "ns"

theorem milliseconds_ofMilliseconds (n : Nat) : (ofMilliseconds n).milliseconds = n := by
  simp [ofMilliseconds, milliseconds]

end Duration

end CowLang
