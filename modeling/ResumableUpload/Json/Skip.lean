import ResumableUpload.Json.Text

/-!
# Skipping a JSON value

A member that nobody asks for is skipped: it must be JSON, of any depth, but its value is not
looked at. So its numbers have no range, and half a surrogate pair is let pass. The open brackets
are kept on an explicit stack.
-/

namespace ResumableUpload.Json.Skip

/-- The rest of a text after a skipped string, from behind the opening quote on. -/
def string : List Char → Except ReadError (List Char)
  | [] => .error .truncated
  | '"' :: rest => .ok rest
  | '\\' :: rest =>
    match rest with
    | [] => .error .truncated
    | 'u' :: a :: b :: c :: d :: rest' =>
      if [a, b, c, d].all fun digit => (Text.digitValue? digit).isSome then string rest'
      else .error .malformed
    | 'u' :: short => if 4 ≤ utf8Size short then .error .malformed else .error .truncated
    | c :: rest' => if (letterEscape? c).isSome then string rest' else .error .malformed
  | c :: rest => if c.toNat < 32 then .error .malformed else string rest

/-- An exponent, after its `e`. -/
def exponent (text : List Char) : Except ReadError (List Char) :=
  let text := match text with
    | '+' :: rest => rest
    | '-' :: rest => rest
    | _ => text
  match text with
  | c :: rest => if c.isDigit then .ok (rest.dropWhile Char.isDigit) else .error .malformed
  | [] => .error .malformed

/-- What may follow the digits of a fraction. -/
def afterFraction (text : List Char) : Except ReadError (List Char) :=
  match text with
  | 'e' :: rest => exponent rest
  | 'E' :: rest => exponent rest
  | _ => .ok text

/-- What may follow the digits of the whole part. -/
def afterWhole (text : List Char) : Except ReadError (List Char) :=
  match text with
  | '.' :: rest =>
    match rest with
    | c :: rest' =>
      if c.isDigit then afterFraction (rest'.dropWhile Char.isDigit) else .error .malformed
    | [] => .error .malformed
  | _ => afterFraction text

/-- The magnitude of a number. -/
def number (text : List Char) : Except ReadError (List Char) :=
  match text with
  | '0' :: rest =>
    match rest with
    | c :: _ => if c.isDigit then .error .malformed else afterWhole rest
    | [] => .ok []
  | c :: rest =>
    if c.isDigit then afterWhole (rest.dropWhile Char.isDigit) else .error .malformed
  | [] => .error .malformed

/-- The bracket that a list or an object was opened with. -/
inductive Frame
  | list
  | object
  deriving DecidableEq, Repr

/-- What comes next: a value, the first item or the closing bracket of what was just opened, or
what follows an item. -/
inductive Place
  | value
  | opened
  | item
  deriving DecidableEq, Repr

/-- The key of a member and its colon. -/
def key (text : List Char) : Except ReadError (List Char) :=
  match skipBlank text with
  | [] => .error .truncated
  | '"' :: rest =>
    match string rest with
    | .error e => .error e
    | .ok rest =>
      match skipBlank rest with
      | [] => .error .truncated
      | ':' :: rest => .ok rest
      | _ => .error .malformed
  | _ => .error .malformed

/-- A literal, a number or a string, or the opening of a bracket. -/
def head (text : List Char) : Except ReadError (Option Frame × List Char) :=
  match text with
  | [] => .error .truncated
  | 'n' :: rest => (word ['u', 'l', 'l'] rest).map (none, ·)
  | 't' :: rest => (word ['r', 'u', 'e'] rest).map (none, ·)
  | 'f' :: rest => (word ['a', 'l', 's', 'e'] rest).map (none, ·)
  | '-' :: rest => (number rest).map (none, ·)
  | '"' :: rest => (string rest).map (none, ·)
  | '[' :: rest => .ok (some .list, rest)
  | '{' :: rest => .ok (some .object, rest)
  | c :: _ => if c.isDigit then (number text).map (none, ·) else .error .malformed

/-- The text of the next value: an item of a list, or what stands behind the key of a member. -/
def nextValue (frame : Frame) (text : List Char) : Except ReadError (List Char) :=
  match frame with
  | .list => .ok text
  | .object => key text

/-- Where the next item begins, if one may come: right behind an opening bracket or a comma. -/
def nextItem? (place : Place) (text : List Char) : Option (List Char) :=
  if place = .opened then some text
  else
    match text with
    | ',' :: rest => some rest
    | _ => none

/-- Is this the bracket that closes? -/
def closes (frame : Frame) (c : Char) : Bool :=
  match frame with
  | .list => c == ']'
  | .object => c == '\x7d'

/-- Skips on from a place within the open brackets until the last of them is closed. Every step
but one in two takes a character, so twice the length of the text is enough. -/
def run : Nat → List Frame → Place → List Char → Except ReadError (List Char)
  | 0, _, _, _ => .error .truncated
  | fuel + 1, stack, .value, text =>
    match head (skipBlank text) with
    | .error e => .error e
    | .ok (some frame, rest) => run fuel (frame :: stack) .opened rest
    | .ok (none, rest) => run fuel stack .item rest
  | _ + 1, [], _, text => .ok text
  | fuel + 1, frame :: stack, place, text =>
    match skipBlank text with
    | [] => .error .truncated
    | c :: rest =>
      if closes frame c then run fuel stack .item rest
      else
        match nextItem? place (c :: rest) with
        | none => .error .malformed
        | some item =>
          match nextValue frame item with
          | .error e => .error e
          | .ok rest => run fuel (frame :: stack) .value rest

/-- The rest of a text after the value at its front. -/
def value (text : List Char) : Except ReadError (List Char) :=
  run (2 * text.length + 2) [] .value text

end ResumableUpload.Json.Skip
