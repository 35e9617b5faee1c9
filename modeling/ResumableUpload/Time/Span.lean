import ResumableUpload.Decimal.Places

/-!
# Spans of time

A span is a whole number of nanoseconds. Its text takes the largest of the units s, ms, µs and ns
that it reaches, and writes the rest as a decimal fraction without trailing zeros.

A span in seconds is a double: its whole seconds and its nanoseconds are rounded on their own, and
their sum once more. A double of seconds is read back to the nearest nanosecond, unless it is
negative, too large for 64-bit seconds, or not a number.
-/

namespace ResumableUpload

/-- A span of time. -/
structure Span where
  nanoseconds : Nat
  deriving DecidableEq, Repr

namespace Span

/-- So many seconds. -/
def ofSeconds (n : Nat) : Span := ⟨n * 1000000000⟩

/-- So many milliseconds. -/
def ofMilliseconds (n : Nat) : Span := ⟨n * 1000000⟩

/-- The whole seconds of a span. -/
def seconds (s : Span) : Nat := s.nanoseconds / 1000000000

/-- What is left of a span without its whole seconds, in nanoseconds. -/
def nanos (s : Span) : Nat := s.nanoseconds % 1000000000

/-- A span `n` times as long. -/
def times (s : Span) (n : Nat) : Span := ⟨s.nanoseconds * n⟩

/-- The `width` digits of a fraction `n / 10 ^ width`, most significant first. -/
def fractionDigits (n : Nat) : Nat → List Char
  | 0 => []
  | width + 1 => fractionDigits (n / 10) width ++ [Nat.digitChar (n % 10)]

/-- A point and the digits of a fraction without trailing zeros; nothing for a zero fraction. -/
def fractionText (n width : Nat) : List Char :=
  match ((fractionDigits n width).reverse.dropWhile (· == '0')).reverse with
  | [] => []
  | digits => '.' :: digits

/-- `n` of a unit that is `10 ^ width` of the smallest ones. -/
def inUnit (n width : Nat) (unit : String) : String :=
  toString (n / Nat.pow 10 width) ++ String.ofList (fractionText (n % Nat.pow 10 width) width) ++
    unit

/-- The text of a span, such as `7s`, `1.5s`, `500ms`, `1.5µs` or `0ns`. -/
def text (s : Span) : String :=
  let n := s.nanoseconds
  if 1000000000 ≤ n then inUnit n 9 "s"
  else if 1000000 ≤ n then inUnit n 6 "ms"
  else if 1000 ≤ n then inUnit n 3 "µs"
  else inUnit n 0 "ns"

/-! ## Doubles -/

/-- A span in seconds. -/
def inSeconds (s : Span) : Float :=
  s.seconds.toUInt64.toFloat + s.nanos.toUInt64.toFloat / (1000000000 : UInt64).toFloat

/-- Why there is no span of so many seconds. -/
inductive SecondsFault
  | negative
  | overflowOrNotANumber
  deriving DecidableEq, Repr

/-- The span of so many seconds, to the nearest nanosecond; halfway between two, the even one. -/
def ofDouble (seconds : Float) : Except SecondsFault Span :=
  if seconds < 0 then .error .negative
  else if seconds < 18446744073709551616 then
    let (num, den) := (Decimal.Binary.ofFloat seconds).fraction
    .ok ⟨Decimal.roundHalfEven (num * 1000000000) den⟩
  else .error .overflowOrNotANumber

end Span

end ResumableUpload
