import ResumableUpload.Decimal.Places

/-!
# The fewest digits that read back

The doubles divide the reals into intervals, each around one double: the numbers that round to it.
`shortest` finds the decimal with the fewest digits inside the interval of a double, and among
those the one nearest to its exact value, an exact tie going to the even digit. It tries one digit,
two digits, and so on; on each decimal grid only the two neighbours of the exact value can be the
nearest hit, and seventeen digits always hit.
-/

namespace ResumableUpload.Decimal

/-- The open or closed interval of fractions `low / den … high / den` that round to a double of
value `mid / den`; the ends belong to it exactly if the double's mantissa is even. -/
structure Interval where
  low : Nat
  mid : Nat
  high : Nat
  den : Nat
  closed : Bool
  deriving Repr

/-- The interval of a positive double. Below a power of two the neighbours are twice as dense. -/
def Interval.ofBinary (b : Binary) : Interval :=
  let lowStep := if b.mantissa = Nat.pow 2 52 ∧ -1074 < b.exponent then 1 else 2
  let scale := Nat.pow 2 (b.exponent - 2).toNat
  let den := Nat.pow 2 (2 - b.exponent).toNat
  { low := (4 * b.mantissa - lowStep) * scale
    mid := 4 * b.mantissa * scale
    high := (4 * b.mantissa + 2) * scale
    den := den
    closed := b.mantissa % 2 = 0 }

/-- Does `num / den'` lie in the interval? -/
def Interval.contains (i : Interval) (num den' : Nat) : Bool :=
  let x := num * i.den
  if i.closed then i.low * den' ≤ x && x ≤ i.high * den'
  else i.low * den' < x && x < i.high * den'

/-- A decimal `digits * 10 ^ exponent`. -/
structure Digits where
  digits : Nat
  exponent : Int
  deriving DecidableEq, Repr

/-- The decimal exponent of a positive fraction: the `e` with `10 ^ e ≤ num / den < 10 ^ (e + 1)`.
The search goes up or down from zero, one power at a time. -/
def decimalExponent (num den : Nat) : Int :=
  if den ≤ num then (up (num / den) 0 (num / den + 1) : Nat)
  else -(down num den 1 den : Nat)
where
  up (q e : Nat) : Nat → Nat
    | 0 => e
    | fuel + 1 => if q < 10 then e else up (q / 10) (e + 1) fuel
  down (num den e : Nat) : Nat → Nat
    | 0 => e
    | fuel + 1 => if den ≤ num * 10 then e else down (num * 10) den (e + 1) fuel

/-- On the grid of step `10 ^ k`, the hit of the interval nearest to its middle, if there is one. -/
def Interval.hit? (i : Interval) (k : Int) : Option Nat :=
  let stepNum := Nat.pow 10 k.toNat
  let stepDen := Nat.pow 10 (-k).toNat
  let below := i.mid * stepDen / (i.den * stepNum)
  let above := below + 1
  let inside (n : Nat) := i.contains (n * stepNum) stepDen
  match inside below && below != 0, inside above with
  | true, true =>
    let fromBelow := i.mid * stepDen - below * stepNum * i.den
    let toAbove := above * stepNum * i.den - i.mid * stepDen
    if fromBelow < toAbove then some below
    else if toAbove < fromBelow then some above
    else if below % 2 = 0 then some below
    else some above
  | true, false => some below
  | false, true => some above
  | false, false => none

/-- A digit string without its trailing zeros. -/
def Digits.trim (d : Digits) : Nat → Digits
  | 0 => d
  | fuel + 1 =>
    if d.digits ≠ 0 ∧ d.digits % 10 = 0 then Digits.trim ⟨d.digits / 10, d.exponent + 1⟩ fuel else d

/-- The shortest decimal that reads back as a positive double. -/
def shortest (b : Binary) : Digits :=
  let i := Interval.ofBinary b
  let e := decimalExponent i.mid i.den
  let found := (List.range 17).findSome? fun (n : Nat) =>
    let k := e - (n : Int)
    (i.hit? k).map fun d => Digits.trim ⟨d, k⟩ 20
  found.getD ⟨0, 0⟩

end ResumableUpload.Decimal
