import ResumableUpload.Text.Basic
import ResumableUpload.Time.Instant

/-!
# The small parts of a TOML text

Blanks, line ends and comments; keys; strings of the four kinds; numbers and points in time. Each
reader answers what it has read and the rest of the text, or nothing.
-/

namespace ResumableUpload.Toml

/-! ## Blanks, line ends and comments -/

def isBlank (c : Char) : Bool := c == ' ' || c == '\t'

def skipBlank (text : List Char) : List Char := text.dropWhile isBlank

/-- May the character stand in a comment or a string? -/
def isText (c : Char) : Bool := c == '\t' || (' ' ≤ c && c != '\x7f')

/-- What follows a line end. -/
def lineEnd? : List Char → Option (List Char)
  | '\n' :: rest => some rest
  | '\r' :: '\n' :: rest => some rest
  | _ => none

/-- What follows the line after a comment or blanks; the last line needs no end. -/
def endLine? (text : List Char) : Option (List Char) :=
  let rest := match skipBlank text with
    | '#' :: rest => rest.dropWhile isText
    | rest => rest
  if rest.isEmpty then some [] else lineEnd? rest

/-- Skips blanks, line ends and comments, as between the items of a list. A comment must end with
its line. -/
def skipLines : Nat → List Char → Option (List Char)
  | 0, _ => none
  | fuel + 1, text =>
    match skipBlank text with
    | '#' :: rest => do skipLines fuel (← lineEnd? (rest.dropWhile isText))
    | rest =>
      match lineEnd? rest with
      | some rest => skipLines fuel rest
      | none => some rest

/-! ## Strings -/

/-- The character with a number, in so many hexadecimal digits. -/
def numbered? (count : Nat) (text : List Char) : Option (Char × List Char) := do
  if text.length < count then none
  else
    let n ← Text.number? 16 (text.take count)
    if n.isValidChar then some (Char.ofNat n, text.drop count) else none

/-- The character of an escape, after its backslash. -/
def escape? : List Char → Option (Char × List Char)
  | '"' :: rest => some ('"', rest)
  | '\\' :: rest => some ('\\', rest)
  | 'b' :: rest => some ('\x08', rest)
  | 'f' :: rest => some ('\x0c', rest)
  | 'n' :: rest => some ('\n', rest)
  | 'r' :: rest => some ('\r', rest)
  | 't' :: rest => some ('\t', rest)
  | 'u' :: rest => numbered? 4 rest
  | 'U' :: rest => numbered? 8 rest
  | _ => none

/-- A string on one line with escapes, after its opening quote. -/
def basicString? : Nat → List Char → Option (List Char × List Char)
  | 0, _ => none
  | _ + 1, [] => none
  | fuel + 1, c :: rest =>
    if c = '"' then some ([], rest)
    else if c = '\\' then do
      let (c, rest) ← escape? rest
      let (cs, rest) ← basicString? fuel rest
      pure (c :: cs, rest)
    else if isText c then do
      let (cs, rest) ← basicString? fuel rest
      pure (c :: cs, rest)
    else none

/-- A string on one line without escapes, after its opening quote. -/
def literalString? : List Char → Option (List Char × List Char)
  | [] => none
  | c :: rest =>
    if c = '\'' then some ([], rest)
    else if isText c then do
      let (cs, rest) ← literalString? rest
      pure (c :: cs, rest)
    else none

/-- Does the text go on with a line end after blanks? -/
def blankLine? (text : List Char) : Option (List Char) := lineEnd? (skipBlank text)

/-- The rest from the first character on that is neither blank nor a line end. -/
def skipBlankLines : Nat → List Char → List Char
  | 0, text => text
  | fuel + 1, text =>
    match lineEnd? (skipBlank text) with
    | some rest => skipBlankLines fuel rest
    | none => skipBlank text

/-- A string of several lines, up to its three closing quotes; one or two more quotes before them
belong to the string. Where escapes count, a backslash at the end of a line joins it with the next
text. Line ends are line feeds. -/
def longString? (quote : Char) (escapes : Bool) : Nat → List Char → Option (List Char × List Char)
  | 0, _ => none
  | _ + 1, [] => none
  | fuel + 1, c :: rest =>
    if c = quote then
      let run := (c :: rest).takeWhile (· == quote)
      let behind := (c :: rest).dropWhile (· == quote)
      if run.length < 3 then do
        let (cs, rest) ← longString? quote escapes fuel behind
        pure (run ++ cs, rest)
      else if run.length < 6 then some (run.drop 3, behind)
      else none
    else if c = '\\' ∧ escapes then
      match blankLine? rest with
      | some rest => longString? quote escapes fuel (skipBlankLines rest.length rest)
      | none => do
        let (c, rest) ← escape? rest
        let (cs, rest) ← longString? quote escapes fuel rest
        pure (c :: cs, rest)
    else
      match lineEnd? (c :: rest) with
      | some rest => do
        let (cs, rest) ← longString? quote escapes fuel rest
        pure ('\n' :: cs, rest)
      | none =>
        if isText c then do
          let (cs, rest) ← longString? quote escapes fuel rest
          pure (c :: cs, rest)
        else none

/-- A string of any kind. A line end right behind three opening quotes does not count. -/
def string? (text : List Char) : Option (List Char × List Char) :=
  match text with
  | '"' :: '"' :: '"' :: rest =>
    longString? '"' true (text.length + 1) ((lineEnd? rest).getD rest)
  | '\'' :: '\'' :: '\'' :: rest =>
    longString? '\'' false (text.length + 1) ((lineEnd? rest).getD rest)
  | '"' :: rest => basicString? (text.length + 1) rest
  | '\'' :: rest => literalString? rest
  | _ => none

/-! ## Keys -/

/-- May the character stand in a key without quotes? -/
def isKeyChar (c : Char) : Bool := c.isAlphanum || c == '_' || c == '-'

/-- One key. -/
def simpleKey? (text : List Char) : Option (String × List Char) :=
  match text with
  | '"' :: rest => (basicString? (text.length + 1) rest).map fun (k, r) => (String.ofList k, r)
  | '\'' :: rest => (literalString? rest).map fun (k, r) => (String.ofList k, r)
  | _ =>
    let letters := text.takeWhile isKeyChar
    if letters.isEmpty then none
    else some (String.ofList letters, text.dropWhile isKeyChar)

/-- At most so many keys with points between them, and blanks around each. -/
def dottedKey? : Nat → List Char → Option (List String × List Char)
  | 0, _ => none
  | limit + 1, text => do
    let (key, rest) ← simpleKey? (skipBlank text)
    match skipBlank rest with
    | '.' :: rest => do
      let (keys, rest) ← dottedKey? limit rest
      pure (key :: keys, rest)
    | rest => pure ([key], rest)

/-- The keys of a path; a path has less than eighty. -/
def key? (text : List Char) : Option ((List String × String) × List Char) := do
  let (keys, rest) ← dottedKey? 79 text
  let last ← keys.getLast?
  pure ((keys.dropLast, last), rest)

/-! ## Numbers -/

/-- Digits with single underscores between them, without the underscores. -/
def digits? (isDigit : Char → Bool) : List Char → Option (List Char × List Char)
  | [] => none
  | c :: rest =>
    if ¬ isDigit c then none
    else
      match rest with
      | '_' :: d :: more =>
        if isDigit d then do
          let (ds, r) ← digits? isDigit (d :: more)
          pure (c :: ds, r)
        else none
      | ['_'] => none
      | d :: more =>
        if isDigit d then do
          let (ds, r) ← digits? isDigit (d :: more)
          pure (c :: ds, r)
        else some ([c], rest)
      | [] => some ([c], rest)

/-- The number that decimal digits spell. -/
def decimal (digits : List Char) : Nat := digits.foldl (fun n c => n * 10 + (c.toNat - 48)) 0

/-- A sign, and whether it is a minus. -/
def sign : List Char → Bool × List Char
  | '-' :: rest => (true, rest)
  | '+' :: rest => (false, rest)
  | text => (false, text)

/-- The digits of a whole number: zero stands alone. -/
def wholeDigits? : List Char → Option (List Char × List Char)
  | '0' :: rest => some (['0'], rest)
  | text => digits? Char.isDigit text

/-- An integer of 64 bits, with its base in front if it is not ten. -/
def integer? (text : List Char) : Option (Int × List Char) := do
  let (n, rest) ← match text with
    | '0' :: 'x' :: rest => based 16 rest
    | '0' :: 'o' :: rest => based 8 rest
    | '0' :: 'b' :: rest => based 2 rest
    | _ => do
      let (negative, rest) := sign text
      let (ds, rest) ← wholeDigits? rest
      let n : Int := decimal ds
      pure (if negative then -n else n, rest)
  if Int64.minValue.toInt ≤ n ∧ n ≤ Int64.maxValue.toInt then some (n, rest) else none
where
  based (base : Nat) (text : List Char) : Option (Int × List Char) := do
    let (ds, rest) ← digits? (fun c => (Text.digitOf? base c).isSome) text
    let n ← Text.number? base ds
    pure (n, rest)

/-- Is the number `significand * 10 ^ exponent` too large for a double? -/
def isTooLarge (significand : Nat) (exponent : Int) : Bool :=
  let limit := Nat.pow 2 1024 - Nat.pow 2 970
  let magnitude := (toString significand).length + exponent
  if significand = 0 ∨ magnitude < 300 then false
  else if 320 < magnitude then true
  else if 0 ≤ exponent then limit ≤ significand * Nat.pow 10 exponent.toNat
  else limit * Nat.pow 10 exponent.natAbs ≤ significand

/-- An exponent, if there is one. -/
def exponent? (text : List Char) : Option (Int × List Char) :=
  match text with
  | c :: rest =>
    if c = 'e' ∨ c = 'E' then do
      let (negative, rest) := sign rest
      let (ds, rest) ← digits? Char.isDigit rest
      let n : Int := decimal ds
      pure (if negative then -n else n, rest)
    else some (0, text)
  | [] => some (0, text)

/-- A number with a fraction or an exponent, or a name for what is no number; a positive one may not
be too large. -/
def fractional? (text : List Char) : Option (List Char) := do
  let (negative, unsigned) := sign text
  match unsigned with
  | 'i' :: 'n' :: 'f' :: rest => some rest
  | 'n' :: 'a' :: 'n' :: rest => some rest
  | _ =>
    let (whole, rest) ← wholeDigits? unsigned
    let (fraction, behind) ← match rest with
      | '.' :: rest => digits? Char.isDigit rest
      | _ => some ([], rest)
    let (e, behind) ← exponent? behind
    if behind.length = rest.length then none
    else if ¬ negative ∧ isTooLarge (decimal (whole ++ fraction)) (e - fraction.length) then none
    else some behind

/-! ## Points in time -/

/-- Exactly so many digits. -/
def fixed? (count : Nat) (text : List Char) : Option (Nat × List Char) :=
  let ds := text.take count
  if ds.length = count ∧ ds.all Char.isDigit then some (decimal ds, text.drop count) else none

/-- A character. -/
def mark? (c : Char) : List Char → Option (List Char)
  | d :: rest => if d = c then some rest else none
  | [] => none

/-- A day of the calendar. -/
def date? (text : List Char) : Option (List Char) := do
  let (year, rest) ← fixed? 4 text
  let (month, rest) ← fixed? 2 (← mark? '-' rest)
  let (day, rest) ← fixed? 2 (← mark? '-' rest)
  if 1 ≤ month ∧ month ≤ 12 ∧ 1 ≤ day ∧ day ≤ Date.daysInMonth year month then some rest else none

/-- A time of day; a minute may have a leap second. -/
def time? (text : List Char) : Option (List Char) := do
  let (hour, rest) ← fixed? 2 text
  let (minute, rest) ← fixed? 2 (← mark? ':' rest)
  let (second, rest) ← fixed? 2 (← mark? ':' rest)
  if hour < 24 ∧ minute < 60 ∧ second ≤ 60 then
    match rest with
    | '.' :: c :: rest => if c.isDigit then some (rest.dropWhile Char.isDigit) else none
    | ['.'] => none
    | _ => some rest
  else none

/-- An offset from UTC, if there is one. -/
def offset? : List Char → Option (List Char)
  | [] => some []
  | c :: rest =>
    if c = 'Z' ∨ c = 'z' then some rest
    else if c = '+' ∨ c = '-' then do
      let (hour, rest) ← fixed? 2 rest
      let (minute, rest) ← fixed? 2 (← mark? ':' rest)
      if hour < 24 ∧ minute < 60 then some rest else none
    else some (c :: rest)

/-- A date, a time or both. -/
def moment? (text : List Char) : Option (List Char) :=
  match date? text with
  | none => time? text
  | some rest =>
    match rest with
    | c :: more =>
      if c = 'T' ∨ c = 't' ∨ c = ' ' then
        match time? more with
        | some rest => offset? rest
        | none => some rest
      else some rest
    | [] => some rest

end ResumableUpload.Toml
