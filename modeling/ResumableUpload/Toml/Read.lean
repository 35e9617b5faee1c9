import ResumableUpload.Toml.Lexeme
import ResumableUpload.Toml.Value

/-!
# Reading TOML

A text is a sequence of lines: blank ones, headers, and keys with their values. Values nest in lists
and inline tables, less than eighty deep.
-/

namespace ResumableUpload.Toml

/-! ## Values -/

/-- What separates items and what ends them. -/
inductive Mark
  | more
  | close

/-- A comma, or the closing bracket. -/
def separator? (close : Char) : List Char → Option (Mark × List Char)
  | c :: rest =>
    if c = ',' then some (.more, rest) else if c = close then some (.close, rest) else none
  | [] => none

/-- The items of a list after its opening bracket. Blanks, line ends and comments may stand around
each, and a comma behind the last. -/
def items? (value? : List Char → Option (Toml × List Char)) :
    Nat → List Char → Option (List Toml × List Char)
  | 0, _ => none
  | fuel + 1, text => do
    let text ← skipLines (text.length + 1) text
    match text with
    | ']' :: rest => some ([], rest)
    | _ =>
      let (item, rest) ← value? text
      let rest ← skipLines (rest.length + 1) rest
      let (mark, rest) ← separator? ']' rest
      match mark with
      | .close => pure ([item], rest)
      | .more =>
        let (more, rest) ← items? value? fuel rest
        pure (item :: more, rest)

/-- A key, the equals sign and the value. -/
def pair? (value? : List Char → Option (Toml × List Char)) (text : List Char) :
    Option (((List String × String) × Toml) × List Char) := do
  let (key, rest) ← key? text
  let rest ← mark? '=' rest
  let (value, rest) ← value? (skipBlank rest)
  pure ((key, value), rest)

/-- The members of an inline table, at least one more. -/
def members? (value? : List Char → Option (Toml × List Char)) :
    Nat → Members → List Char → Option (Members × List Char)
  | 0, _, _ => none
  | fuel + 1, members, text => do
    let (((path, key), value), rest) ← pair? value? text
    let members ← define path key value members
    let (mark, rest) ← separator? '\x7d' (skipBlank rest)
    match mark with
    | .close => pure (members, rest)
    | .more => members? value? fuel members rest

/-- A word. -/
def word? (word : String) (text : List Char) : Option (List Char) :=
  if word.toList.isPrefixOf text then some (text.drop word.length) else none

/-- A number or a point in time. -/
def scalar? (text : List Char) : Option (Toml × List Char) :=
  match moment? text with
  | some rest => some (.moment (spelling rest), rest)
  | none =>
    match fractional? text with
    | some rest => some (.fractional (spelling rest), rest)
    | none => (integer? text).map fun (n, rest) => (.integer n, rest)
where
  spelling (rest : List Char) : String := String.ofList (text.take (text.length - rest.length))

/-- A value, with at most so many levels of brackets. -/
def value? : Nat → List Char → Option (Toml × List Char)
  | levels, text =>
    match text with
    | [] => none
    | c :: rest =>
      if c = '"' ∨ c = '\'' then
        (string? text).map fun (t, rest) => (.string (String.ofList t), rest)
      else if c = '[' then
        match levels with
        | 0 => none
        | levels + 1 =>
          (items? (value? levels) (rest.length + 1) rest).map fun (xs, rest) => (.list xs, rest)
      else if c = '\x7b' then
        match levels with
        | 0 => none
        | levels + 1 =>
          match skipBlank rest with
          | '}' :: rest => some (.table .inline [], rest)
          | _ =>
            (members? (value? levels) (rest.length + 1) [] rest).map
              fun (ms, rest) => (.table .inline ms, rest)
      else if c = 't' then (word? "true" text).map (.boolean true, ·)
      else if c = 'f' then (word? "false" text).map (.boolean false, ·)
      else scalar? text

/-- The levels of brackets that a value may have. -/
def levels : Nat := 79

/-! ## Lines -/

/-- What has been read: the header that the lines are below, and the root table. -/
structure State where
  header : List String
  root : Members

/-- A header, after its first bracket. -/
def header? (s : State) (text : List Char) : Option (State × List Char) :=
  match text with
  | '[' :: rest => do
    let ((path, key), rest) ← key? rest
    let rest ← endLine? (← mark? ']' (← mark? ']' rest))
    pure (⟨path ++ [key], ← openElement path key s.root⟩, rest)
  | _ => do
    let ((path, key), rest) ← key? text
    let rest ← endLine? (← mark? ']' rest)
    pure (⟨path ++ [key], ← openTable path key s.root⟩, rest)

/-- A key and its value. -/
def line? (s : State) (text : List Char) : Option (State × List Char) := do
  let (((path, key), value), rest) ← pair? (value? levels) text
  pure (⟨s.header, ← defineBelow s.header path key value s.root⟩, ← endLine? rest)

/-- The lines of a text. -/
def lines? : Nat → State → List Char → Option Members
  | 0, _, _ => none
  | fuel + 1, s, text =>
    match skipBlank text with
    | [] => some s.root
    | '[' :: rest => do
      let (s, rest) ← header? s rest
      lines? fuel s rest
    | rest =>
      match endLine? rest with
      | some rest => lines? fuel s rest
      | none => do
        let (s, rest) ← line? s rest
        lines? fuel s rest

/-- Reads a text; a byte order mark may stand in front. -/
def read? (text : String) : Option Members :=
  let letters := match text.toList with
    | '\ufeff' :: rest => rest
    | letters => letters
  lines? (letters.length + 1) ⟨[], []⟩ letters

end ResumableUpload.Toml
