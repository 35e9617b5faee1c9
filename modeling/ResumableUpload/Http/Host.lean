import ResumableUpload.Bytes.Basic
import ResumableUpload.Text.Basic

/-!
# Hosts

The host of an address is a name, or a number in one of two forms: four groups of eight bits with
points between them, or eight groups of sixteen bits in square brackets. A name whose last label is
a number must be of the first form, where each group may also be written in octal or hexadecimal and
the last one may stand for several.
-/

namespace ResumableUpload

/-! ## Percent encoding

In an address a character that may not stand for itself is written as its UTF-8 bytes, each as a
percent sign and two upper-case hexadecimal digits. A percent sign that is there already stays, so
encoding twice changes nothing more. -/

namespace Percent

/-- A byte as a percent sign and two digits. -/
def triplet (b : UInt8) : List Char := ['%', digit (b.toNat / 16), digit (b.toNat % 16)]
where
  digit (n : Nat) : Char := if n < 10 then Char.ofNat (48 + n) else Char.ofNat (55 + n)

/-- The text with every character that is not plain encoded. -/
def encode (plain : Char → Bool) (text : List Char) : List Char :=
  text.flatMap fun c =>
    if plain c then [c] else (Bytes.ofText (String.singleton c)).flatMap triplet

/-- The bytes of a text, with every triplet as its one byte. -/
def decode : List Char → Bytes
  | '%' :: c :: d :: rest =>
    match Text.digitValue? c, Text.digitValue? d with
    | some high, some low => UInt8.ofNat (16 * high + low) :: decode rest
    | _, _ => 37 :: decode (c :: d :: rest)
  | c :: rest => Bytes.ofText (String.singleton c) ++ decode rest
  | [] => []

end Percent

/-! ## Hosts -/

/-- A host by name, by 32 bits or by 128 bits. -/
inductive Host
  | name (labels : String)
  | four (address : Nat)
  | six (groups : List Nat)
  deriving DecidableEq, Repr

namespace Host

/-! ## Four groups -/

/-- One group: decimal, octal after a zero, hexadecimal after `0x`. -/
def group? : List Char → Option Nat
  | [] => none
  | '0' :: 'x' :: rest => Text.number? 16 rest
  | '0' :: 'X' :: rest => Text.number? 16 rest
  | '0' :: c :: rest => Text.number? 8 (c :: rest)
  | text => Text.number? 10 text

/-- The labels of a name, without an empty last one. -/
def labels (text : List Char) : List (List Char) :=
  let pieces := text.splitOn '.'
  if pieces.getLast? = some [] ∧ 1 < pieces.length then pieces.dropLast else pieces

/-- Is the last label a number, at least by its looks? -/
def endsInNumber (text : List Char) : Bool :=
  match (labels text).getLast? with
  | none => false
  | some last => (!last.isEmpty && last.all Char.isDigit) || (group? last).isSome

/-- The address of four groups or less; the last group fills what the others leave. -/
def four? (text : List Char) : Option Nat := do
  let groups ← (labels text).mapM group?
  let last ← groups.getLast?
  let others := groups.dropLast
  if others.length ≤ 3 ∧ others.all (· < 256) ∧ last < Nat.pow 256 (4 - others.length) then
    some (others.zipIdx.foldl (fun sum (g, i) => sum + g * Nat.pow 256 (3 - i)) last)
  else none

/-! ## Eight groups -/

/-- A group of one to four hexadecimal digits. -/
def shortGroup? (text : List Char) : Option Nat :=
  if text.isEmpty ∨ 4 < text.length then none else Text.number? 16 text

/-- A decimal byte without leading zeros. -/
def byte? (text : List Char) : Option Nat :=
  if text.isEmpty ∨ (1 < text.length ∧ text.head? = some '0') then none
  else (Text.number? 10 text).filter (· < 256)

/-- Two groups in the form of four bytes with points between them. -/
def pair? (text : List Char) : Option (List Nat) :=
  match (text.splitOn '.').mapM byte? with
  | some [a, b, c, d] => some [256 * a + b, 256 * c + d]
  | _ => none

/-- Groups with colons between them; the last two may be in the form with points. -/
def run? (tailMayHavePoints : Bool) : List (List Char) → Option (List Nat)
  | [] => some []
  | [last] =>
    if tailMayHavePoints ∧ last.contains '.' then pair? last else (shortGroup? last).map ([·])
  | group :: rest => do
    let g ← shortGroup? group
    let gs ← run? tailMayHavePoints rest
    pure (g :: gs)

/-- What stands before and after the first double colon. -/
def cut : List Char → Option (List Char × List Char)
  | ':' :: ':' :: rest => some ([], rest)
  | c :: rest => (cut rest).map fun (before, after) => (c :: before, after)
  | [] => none

/-- The groups of a text that may be empty. -/
def groups? (tailMayHavePoints : Bool) (text : List Char) : Option (List Nat) :=
  if text.isEmpty then some [] else run? tailMayHavePoints (text.splitOn ':')

/-- Eight groups, or less around a double colon that stands for the zeros that are missing. -/
def six? (text : List Char) : Option (List Nat) :=
  match cut text with
  | none => (groups? true text).filter fun gs => gs.length = 8
  | some (before, after) => do
    let front ← groups? false before
    let back ← groups? true after
    if front.length + back.length ≤ 7 then
      some (front ++ List.replicate (8 - front.length - back.length) 0 ++ back)
    else none

/-! ## All forms -/

/-- May a character stand in a name? -/
def mayStandInName (c : Char) : Bool :=
  ' ' < c && c != '\x7f' && !"%#/:<>?@[\\]^|".toList.contains c

/-- Reads a host. -/
def read? (text : List Char) : Option Host :=
  match text with
  | '[' :: rest =>
    if rest.getLast? = some ']' then (six? rest.dropLast).map .six else none
  | _ => do
    let name := (← Bytes.text? (Percent.decode text)).toLower
    let letters := name.toList
    if letters.isEmpty ∨ ¬ letters.all mayStandInName then none
    else if endsInNumber letters then (four? letters).map .four
    else some (.name name)

/-- The text of a host. -/
def text : Host → String
  | .name labels => labels
  | .four address =>
    ".".intercalate ([24, 16, 8, 0].map fun shift => toString (address >>> shift % 256))
  | .six groups =>
    "[" ++ ":".intercalate (groups.map fun g => String.ofList (Nat.toDigits 16 g)) ++ "]"

end Host

end ResumableUpload
