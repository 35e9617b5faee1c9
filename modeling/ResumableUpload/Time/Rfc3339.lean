import ResumableUpload.Text.Basic
import ResumableUpload.Time.Instant

/-!
# RFC 3339 date-times

Reading is lenient where RFC 3339 is strict: numbers need not be padded, blanks may stand around
the numbers of the date and of the time, a signed year may lie outside 0 to 9999, a blank or a
lower-case `t` may stand for the `T`, the name `UTC` for the offset, and the colon of an offset may
be blanks or missing. Writing is strict: UTC with `Z`, and 0, 3, 6 or 9 fraction digits, whichever
is the fewest that is exact.
-/

namespace ResumableUpload.Rfc3339

/-! ## Reading -/

/-- The value of a run of at most `limit` digits and what follows it; `none` without a digit. -/
def number? (limit : Nat) (cs : List Char) : Option (Nat × List Char) :=
  let digits := (cs.take limit).takeWhile Char.isDigit
  if digits.isEmpty then none
  else some (digits.foldl (fun n c => n * 10 + (c.toNat - 48)) 0, cs.drop digits.length)

/-- A number of at most `limit` digits after blanks. -/
def padded? (limit : Nat) (cs : List Char) : Option (Nat × List Char) :=
  number? limit (Text.trimLeft cs)

/-- A mark after blanks. -/
def mark? (mark : Char) (cs : List Char) : Option (List Char) :=
  match Text.trimLeft cs with
  | c :: rest => if c = mark then some rest else none
  | [] => none

/-- A year: up to four digits, or any number of digits after a sign. -/
def year? (cs : List Char) : Option (Int × List Char) :=
  let cs := Text.trimLeft cs
  match cs with
  | '-' :: rest => (number? rest.length rest).map fun (n, r) => (-(n : Int), r)
  | '+' :: rest => (number? rest.length rest).map fun (n, r) => ((n : Int), r)
  | _ => (number? 4 cs).map fun (n, r) => ((n : Int), r)

/-- The nanoseconds of a fraction, if there is one: digits after the ninth are dropped. -/
def fraction? : List Char → Option (Nat × List Char)
  | '.' :: rest =>
    (number? 9 rest).map fun (n, r) =>
      (n * Nat.pow 10 (9 - (rest.length - r.length)), r.dropWhile Char.isDigit)
  | cs => some (0, cs)

/-- Two digits that stand directly at the front. -/
def twoDigits? : List Char → Option (Nat × List Char)
  | a :: b :: rest =>
    if a.isDigit && b.isDigit then some ((a.toNat - 48) * 10 + (b.toNat - 48), rest) else none
  | _ => none

/-- An offset from UTC in minutes: `Z`, `UTC`, or a sign, two digits of hours and two of minutes. -/
def offset? (cs : List Char) : Option (Int × List Char) :=
  match cs with
  | 'Z' :: rest => some (0, rest)
  | 'z' :: rest => some (0, rest)
  | u :: t :: c :: rest =>
    if u.toLower = 'u' ∧ t.toLower = 't' ∧ c.toLower = 'c' then some (0, rest) else signed cs
  | _ => signed cs
where
  signed : List Char → Option (Int × List Char)
    | '+' :: rest => magnitude rest
    | '-' :: rest => (magnitude rest).map fun (n, r) => (-n, r)
    | '−' :: rest => (magnitude rest).map fun (n, r) => (-n, r)
    | _ => none
  magnitude (cs : List Char) : Option (Int × List Char) := do
    let (hours, cs) ← twoDigits? cs
    let (minutes, cs) ← twoDigits? (cs.dropWhile fun c => c = ':' || Text.isBlank c)
    if minutes < 60 then some ((hours * 60 + minutes : Nat), cs) else none

/-- The `T` between date and time. -/
def separator? : List Char → Option (List Char)
  | c :: rest => if c = 'T' ∨ c = 't' ∨ c = ' ' then some rest else none
  | [] => none

/-- The instant that a text stands for. -/
def read? (text : String) : Option Instant := do
  let (year, cs) ← year? text.toList
  let cs ← mark? '-' cs
  let (month, cs) ← padded? 2 cs
  let cs ← mark? '-' cs
  let (day, cs) ← padded? 2 cs
  let cs ← separator? cs
  let (hour, cs) ← padded? 2 cs
  let cs ← mark? ':' cs
  let (minute, cs) ← padded? 2 cs
  let cs ← mark? ':' cs
  let (second, cs) ← padded? 2 cs
  let (nanos, cs) ← fraction? cs
  let (minutes, cs) ← offset? (Text.trimLeft cs)
  let t : Instant :=
    if second = 60 then ⟨⟨year, month, day⟩, hour, minute, 59, nanos + 1000000000⟩
    else ⟨⟨year, month, day⟩, hour, minute, second, nanos⟩
  if (Text.trimLeft cs).isEmpty && t.isValid && minutes.natAbs < 1440 then t.ofLocal? minutes
  else none

/-! ## Writing -/

/-- The decimal digits of `n`, at least `width` of them. -/
def pad (width n : Nat) : List Char :=
  let digits := (toString n).toList
  List.replicate (width - digits.length) '0' ++ digits

/-- A year: four digits, or a sign and at least four. -/
def yearText (year : Int) : List Char :=
  if 0 ≤ year ∧ year ≤ 9999 then pad 4 year.toNat
  else (if 0 ≤ year then '+' else '-') :: pad 4 year.natAbs

/-- A fraction of a second with 0, 3, 6 or 9 digits. -/
def fractionText (nanos : Nat) : List Char :=
  if nanos = 0 then []
  else if nanos % 1000000 = 0 then '.' :: pad 3 (nanos / 1000000)
  else if nanos % 1000 = 0 then '.' :: pad 6 (nanos / 1000)
  else '.' :: pad 9 nanos

/-- The text of an instant. A leap second is the sixtieth of its minute. -/
def write (t : Instant) : String :=
  let leap := 1000000000 ≤ t.nanos
  let second := if leap then t.second + 1 else t.second
  let nanos := if leap then t.nanos - 1000000000 else t.nanos
  String.ofList
    (yearText t.date.year ++ '-' :: pad 2 t.date.month ++ '-' :: pad 2 t.date.day ++
      'T' :: pad 2 t.hour ++ ':' :: pad 2 t.minute ++ ':' :: pad 2 second ++
      fractionText nanos ++ ['Z'])

end ResumableUpload.Rfc3339
