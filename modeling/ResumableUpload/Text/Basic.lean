/-!
# Blanks and digits

The Unicode property `White_Space`, and cutting blanks off both ends of a text; ASCII blanks are the
first six members of the table. The value of a hexadecimal digit of either case, and the number that
digits of a base spell.
-/

namespace ResumableUpload.Text

/-! ## Blanks -/

/-- The ranges of the Unicode property `White_Space`. -/
def blankRanges : List (Nat × Nat) :=
  [(0x09, 0x0D), (0x20, 0x20), (0x85, 0x85), (0xA0, 0xA0), (0x1680, 0x1680), (0x2000, 0x200A),
   (0x2028, 0x2029), (0x202F, 0x202F), (0x205F, 0x205F), (0x3000, 0x3000)]

/-- Has the character the property `White_Space`? -/
def isBlank (c : Char) : Bool := blankRanges.any fun (lo, hi) => lo ≤ c.toNat && c.toNat ≤ hi

/-- The characters from the first that is not blank on. -/
def trimLeft (cs : List Char) : List Char := cs.dropWhile isBlank

/-- Without the blanks at both ends. -/
def trimChars (cs : List Char) : List Char := (trimLeft (trimLeft cs).reverse).reverse

/-- A text without the blanks at both ends. -/
def trim (text : String) : String := String.ofList (trimChars text.toList)

/-- Is there nothing but blanks? -/
def isBlankText (text : String) : Bool := text.toList.all isBlank

/-! ## Digits -/

/-- The value of a hexadecimal digit. -/
def digitValue? (c : Char) : Option Nat :=
  if '0' ≤ c ∧ c ≤ '9' then some (c.toNat - 48)
  else if 'a' ≤ c ∧ c ≤ 'f' then some (c.toNat - 87)
  else if 'A' ≤ c ∧ c ≤ 'F' then some (c.toNat - 55)
  else none

/-- The value of a digit of a base of at most sixteen. -/
def digitOf? (base : Nat) (c : Char) : Option Nat := (digitValue? c).filter (· < base)

/-- The number that digits of a base spell behind `sum`, or `none` if one of them is no digit. -/
def numberFrom? (base : Nat) (sum : Nat) : List Char → Option Nat
  | [] => some sum
  | c :: rest =>
    match digitOf? base c with
    | some d => numberFrom? base (sum * base + d) rest
    | none => none

/-- The number that digits of a base spell; no digits spell zero. -/
def number? (base : Nat) (digits : List Char) : Option Nat := numberFrom? base 0 digits

end ResumableUpload.Text
