/-!
# Writing TOML strings

A string is written in the plainest of five forms that can hold it: between double quotes as it is,
between single quotes, between three of either, or with escapes. A form of several lines begins
with a line end if the string has one.
-/

namespace ResumableUpload.Toml

/-- The length of the longest run of a character. -/
def longestRun (c : Char) (text : List Char) : Nat := go 0 0 text
where
  /-- With the run so far and the longest one before. -/
  go (current longest : Nat) : List Char → Nat
    | [] => max current longest
    | d :: rest => if d = c then go (current + 1) longest rest else go 0 (max current longest) rest

/-- Is it a control character other than tab and line feed? -/
def needsEscape (c : Char) : Bool := (c < ' ' && c != '\t' && c != '\n') || c == '\x7f'

/-- Four upper-case hexadecimal digits. -/
def fourDigits (n : Nat) : List Char :=
  [4096, 256, 16, 1].map fun place =>
    let d := n / place % 16
    Char.ofNat (if d < 10 then 48 + d else 55 + d)

/-- A character between double quotes. -/
def escaped (c : Char) : List Char :=
  if c = '\x08' then ['\\', 'b']
  else if c = '\t' then ['\\', 't']
  else if c = '\n' then ['\\', 'n']
  else if c = '\x0c' then ['\\', 'f']
  else if c = '\r' then ['\\', 'r']
  else if c = '"' then ['\\', '"']
  else if c = '\\' then ['\\', '\\']
  else if c < ' ' ∨ c = '\x7f' then '\\' :: 'u' :: fourDigits c.toNat
  else [c]

/-- Between double quotes. -/
def basic (text : List Char) : List Char := '"' :: (text.flatMap escaped ++ ['"'])

/-- Between three double quotes: line feeds stay, and so do up to two quotes in a row. -/
def longEscaped : Nat → List Char → List Char
  | _, [] => []
  | quotes, c :: rest =>
    if c = '\n' then c :: longEscaped 0 rest
    else if c = '"' ∧ quotes < 2 then c :: longEscaped (quotes + 1) rest
    else escaped c ++ longEscaped 0 rest

/-- The line end that a form of several lines begins with. -/
def leadingLine (text : List Char) : List Char := if text.contains '\n' then ['\n'] else []

/-- Between three double quotes. -/
def longBasic (text : List Char) : List Char :=
  ['"', '"', '"'] ++ leadingLine text ++ longEscaped 0 text ++ ['"', '"', '"']

/-- Between single quotes. -/
def literal (text : List Char) : List Char := '\'' :: (text ++ ['\''])

/-- Between three single quotes. -/
def longLiteral (text : List Char) : List Char :=
  ['\'', '\'', '\''] ++ leadingLine text ++ text ++ ['\'', '\'', '\'']

/-- The plainest form of a string. -/
def writeString (value : String) : String :=
  let text := value.toList
  let controls := text.any needsEscape
  let lines := text.contains '\n'
  let backslash := text.contains '\\'
  let doubles := longestRun '"' text
  let singles := longestRun '\'' text
  String.ofList <|
    if ¬ controls ∧ ¬ backslash ∧ doubles = 0 ∧ ¬ lines then basic text
    else if ¬ controls ∧ singles = 0 ∧ ¬ lines then literal text
    else if ¬ controls ∧ ¬ backslash ∧ doubles ≤ 2 then longBasic text
    else if ¬ controls ∧ singles ≤ 2 then longLiteral text
    else if lines then longBasic text
    else basic text

end ResumableUpload.Toml
