/-!
# The exact value of a double

A finite double is a sign and a natural number times a power of two. `Binary.ofFloat` reads the
three off the bits, so that digits can be chosen with exact arithmetic on natural numbers. A number
with one decimal place is the exact value rounded to tenths, a tie to the even tenth.
-/

namespace ResumableUpload.Decimal

/-- `mantissa * 2 ^ exponent`, with a sign. -/
structure Binary where
  negative : Bool
  mantissa : Nat
  exponent : Int
  deriving DecidableEq, Repr

/-- The value that the 64 bits of a finite double stand for. -/
def Binary.ofBits (bits : UInt64) : Binary :=
  let field := (bits >>> 52).toNat % 2048
  let fraction := bits.toNat % Nat.pow 2 52
  let negative := Nat.pow 2 63 ≤ bits.toNat
  if field = 0 then ⟨negative, fraction, -1074⟩
  else ⟨negative, Nat.pow 2 52 + fraction, (field : Int) - 1075⟩

/-- The value of a finite double. -/
def Binary.ofFloat (x : Float) : Binary := .ofBits x.toBits

/-- The magnitude as a fraction of natural numbers. -/
def Binary.fraction (b : Binary) : Nat × Nat :=
  if 0 ≤ b.exponent then (b.mantissa * Nat.pow 2 b.exponent.toNat, 1)
  else (b.mantissa, Nat.pow 2 (-b.exponent).toNat)

/-- The natural number nearest to `num / den`; halfway between two, the even one. -/
def roundHalfEven (num den : Nat) : Nat :=
  let q := num / den
  let r := num % den
  if 2 * r < den then q
  else if den < 2 * r then q + 1
  else if q % 2 = 0 then q
  else q + 1

/-- A double with one decimal place. -/
def onePlace (x : Float) : String :=
  let b := Binary.ofFloat x
  let (num, den) := b.fraction
  let tenths := roundHalfEven (num * 10) den
  (if b.negative then "-" else "") ++ toString (tenths / 10) ++ "." ++ toString (tenths % 10)

end ResumableUpload.Decimal
