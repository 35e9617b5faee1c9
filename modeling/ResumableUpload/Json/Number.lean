import ResumableUpload.Decimal.Shortest
import ResumableUpload.Json.ReadError

/-!
# JSON numbers

A number without fraction and exponent that fits 64 bits is an integer; `-0` is not, since the
integers have no negative zero. Every other number is a double. It is read as a significand and a
power of ten: digits are taken into the significand as long as it fits 64 bits, later ones only
shift it, and the double is the significand multiplied or divided by the power. A number too large
for a double is malformed; one too small is zero.

A double is written with the fewest digits that read back: positionally from 10^-5 up to 10^16 with
at least one decimal, and with an exponent outside.
-/

namespace ResumableUpload.Json

/-- A JSON number: an integer in `[-2^63, 2^64)`, or a double. -/
inductive Number
  | integer (value : Int)
  | double (value : Float)
  deriving Repr

namespace Number

/-- The largest significand. -/
def maxSignificand : Nat := UInt64.size - 1

/-- The largest exponent that is written out digit by digit. -/
def maxExponent : Nat := 2147483647

/-- The double of a power of ten. -/
def powerOfTen (e : Nat) : Float := Float.ofScientific 1 false e

/-- A double divided by a power of ten, in steps that are doubles themselves. -/
def divideByPower (x : Float) (e : Nat) : Float :=
  if e ≤ 308 then x / powerOfTen e
  else if x == 0 then x
  else divideByPower (x / powerOfTen 308) (e - 308)
termination_by e

/-- A significand times a power of ten, unless that is out of range. -/
def scale (negative : Bool) (significand : Nat) (exponent : Int) : Except ReadError Number :=
  let x := significand.toUInt64.toFloat
  let signed (y : Float) : Number := .double (if negative then -y else y)
  if exponent < 0 then .ok (signed (divideByPower x exponent.natAbs))
  else if exponent ≤ 308 then
    let y := x * powerOfTen exponent.natAbs
    if y.isInf then .error .malformed else .ok (signed y)
  else if significand = 0 then .ok (signed x)
  else .error .malformed

/-- The value of a decimal digit. -/
def digitValue (c : Char) : Nat := c.toNat - 48

/-! ## Reading -/

/-- The digits of an exponent. One beyond the limit makes the number zero, or too large. -/
def exponentDigits (negative : Bool) (significand : Nat) (start : Int) (down : Bool) (e : Nat) :
    List Char → Reading Number
  | c :: rest =>
    if c.isDigit then
      let e' := e * 10 + digitValue c
      if maxExponent < e' then
        if significand ≠ 0 ∧ ¬ down then .error .malformed
        else .ok (.double (if negative then -0.0 else 0.0), rest.dropWhile Char.isDigit)
      else exponentDigits negative significand start down e' rest
    else finish (c :: rest)
  | [] => finish []
where
  finish (rest : List Char) : Reading Number :=
    (scale negative significand (if down then start - e else start + e)).map fun n => (n, rest)

/-- An exponent, after its `e`. -/
def exponent (negative : Bool) (significand : Nat) (start : Int) (text : List Char) :
    Reading Number :=
  let (down, text) := match text with
    | '+' :: rest => (false, rest)
    | '-' :: rest => (true, rest)
    | _ => (false, text)
  match text with
  | [] => .error .truncated
  | c :: rest =>
    if c.isDigit then exponentDigits negative significand start down (digitValue c) rest
    else .error .malformed

/-- What may follow the last digit of a number that is a double. -/
def doubleTail (negative : Bool) (significand : Nat) (start : Int) (text : List Char) :
    Reading Number :=
  match text with
  | c :: rest =>
    if c = 'e' ∨ c = 'E' then exponent negative significand start rest
    else (scale negative significand start).map fun n => (n, text)
  | [] => (scale negative significand start).map fun n => (n, text)

/-- The digits of a fraction; `start` is the power of ten of the digit before. -/
def fractionDigits (negative : Bool) (significand : Nat) (start : Int) :
    List Char → Reading Number
  | c :: rest =>
    if c.isDigit then
      let s := significand * 10 + digitValue c
      if maxSignificand < s then
        doubleTail negative significand start (rest.dropWhile Char.isDigit)
      else fractionDigits negative s (start - 1) rest
    else doubleTail negative significand start (c :: rest)
  | [] => doubleTail negative significand start []

/-- A fraction, after its point: at least one digit. -/
def fraction (negative : Bool) (significand : Nat) (start : Int) (text : List Char) :
    Reading Number :=
  match text with
  | [] => .error .truncated
  | c :: _ =>
    if c.isDigit then fractionDigits negative significand start text else .error .malformed

/-- The digits of a number whose significand is full: they only count. -/
def surplusDigits (negative : Bool) (significand : Nat) (count : Nat) : List Char → Reading Number
  | c :: rest =>
    if c.isDigit then surplusDigits negative significand (count + 1) rest
    else if c = '.' then fraction negative significand count rest
    else doubleTail negative significand count (c :: rest)
  | [] => doubleTail negative significand count []

/-- A number whose whole part is the significand: a fraction or an exponent may follow. -/
def wholeTail (negative : Bool) (significand : Nat) (text : List Char) : Reading Number :=
  match text with
  | '.' :: rest => fraction negative significand 0 rest
  | 'e' :: rest => exponent negative significand 0 rest
  | 'E' :: rest => exponent negative significand 0 rest
  | _ =>
    if ¬ negative then .ok (.integer significand, text)
    else if significand = 0 ∨ 9223372036854775808 < significand then
      .ok (.double (-significand.toUInt64.toFloat), text)
    else .ok (.integer (-(significand : Int)), text)

/-- The digits of the whole part after the first. -/
def wholeDigits (negative : Bool) (significand : Nat) : List Char → Reading Number
  | c :: rest =>
    if c.isDigit then
      let s := significand * 10 + digitValue c
      if maxSignificand < s then surplusDigits negative significand 1 rest
      else wholeDigits negative s rest
    else wholeTail negative significand (c :: rest)
  | [] => wholeTail negative significand []

/-- The magnitude of a number: no zero stands before another digit. -/
def magnitude (negative : Bool) (text : List Char) : Reading Number :=
  match text with
  | [] => .error .truncated
  | '0' :: rest =>
    match rest with
    | c :: _ => if c.isDigit then .error .malformed else wholeTail negative 0 rest
    | [] => wholeTail negative 0 rest
  | c :: rest =>
    if c.isDigit then wholeDigits negative (digitValue c) rest else .error .malformed

/-! ## Writing -/

/-- The text of a double. -/
def writeDouble (x : Float) : List Char :=
  let b := Decimal.Binary.ofFloat x
  let sign := if b.negative then ['-'] else []
  if b.mantissa = 0 then sign ++ ['0', '.', '0']
  else
    let d := Decimal.shortest b
    let digits := (toString d.digits).toList
    let point := (digits.length : Int) + d.exponent
    sign ++
      if 0 ≤ d.exponent ∧ point ≤ 16 then
        digits ++ List.replicate d.exponent.toNat '0' ++ ['.', '0']
      else if 0 < point ∧ point ≤ 16 then
        digits.take point.toNat ++ '.' :: digits.drop point.toNat
      else if -5 < point ∧ point ≤ 0 then
        '0' :: '.' :: (List.replicate (-point).toNat '0' ++ digits)
      else
        digits.take 1 ++ (if digits.length = 1 then [] else '.' :: digits.drop 1) ++
          'e' :: (toString (point - 1)).toList

/-- The text of a number. -/
def write : Number → List Char
  | .integer n => (toString n).toList
  | .double x => writeDouble x

end Number

end ResumableUpload.Json
