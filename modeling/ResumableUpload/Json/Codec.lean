import ResumableUpload.Json.Skip
import ResumableUpload.Json.Value
import ResumableUpload.Time.Rfc3339

/-!
# Codecs

A codec reads a type from JSON text and writes it back. Reading takes the number of levels of
brackets that may still be opened, and answers the value and the rest of the text; `decode` reads a
whole text, `encode` writes one. Here are the codecs of the leaves (texts, integers by range,
instants, free-form values, named choices) and of lists; `Json.Record` has those of records.
-/

namespace ResumableUpload

/-- How a type is read from JSON text and written to it. -/
structure Codec (α : Type) where
  read : Nat → List Char → Json.Reading α
  write : α → List Char

namespace Codec

open Json (ReadError Reading Found skipBlank)

/-- The levels of brackets that a text may open. -/
def levels : Nat := 127

/-- Reads a whole text: nothing but blanks may follow the value. -/
def decode {α : Type} (c : Codec α) (text : String) : Except ReadError α :=
  match c.read levels text.toList with
  | .error e => .error e
  | .ok (value, rest) => if (skipBlank rest).isEmpty then .ok value else .error .malformed

/-- Writes a value without blanks. -/
def encode {α : Type} (c : Codec α) (value : α) : String := String.ofList (c.write value)

/-- Why a text whose value has the wrong type does not read. A literal, a number or a string is read
first, and what is wrong with it counts. -/
def mismatch (expected : String) (text : List Char) : ReadError :=
  match text with
  | 'n' :: rest => settle .null (Json.word ['u', 'l', 'l'] rest)
  | 't' :: rest => settle (.boolean true) (Json.word ['r', 'u', 'e'] rest)
  | 'f' :: rest => settle (.boolean false) (Json.word ['a', 'l', 's', 'e'] rest)
  | '-' :: rest => number (Json.Number.magnitude true rest)
  | '"' :: rest =>
    match Json.readString rest with
    | .error e => e
    | .ok (t, _) => .wrongType (.text t) expected
  | '[' :: _ => .wrongType .list expected
  | '{' :: _ => .wrongType .object expected
  | c :: _ => if c.isDigit then number (Json.Number.magnitude false text) else .malformed
  | [] => .truncated
where
  settle (found : Found) : Except ReadError (List Char) → ReadError
    | .error e => e
    | .ok _ => .wrongType found expected
  number : Reading Json.Number → ReadError
    | .error e => e
    | .ok (.integer n, _) => .wrongType (.integer n) expected
    | .ok (.double _, _) => .wrongType .fractional expected

/-! ## Leaves -/

/-- A string that `parse` accepts. -/
def ofText {α : Type} (expected : String) (parse : String → Except ReadError α)
    (print : α → String) : Codec α where
  read _ text :=
    match skipBlank text with
    | [] => .error .truncated
    | '"' :: rest =>
      match Json.readString rest with
      | .error e => .error e
      | .ok (t, rest) => (parse t).map (·, rest)
    | rest => .error (mismatch expected rest)
  write value := Json.writeString (print value)

/-- A text. -/
def text : Codec String := ofText "a string" .ok id

/-- An instant in RFC 3339 text. -/
def instant : Codec Instant :=
  ofText "an RFC 3339 formatted date and time string"
    (fun t => match Rfc3339.read? t with
      | some i => .ok i
      | none => .error .badInstant)
    Rfc3339.write

/-- An integer that `ofInt?` accepts. -/
def ofInteger {α : Type} (expected : String) (ofInt? : Int → Option α) (toInt : α → Int) :
    Codec α where
  read _ text :=
    match skipBlank text with
    | [] => .error .truncated
    | '-' :: rest => number (Json.Number.magnitude true rest)
    | c :: rest =>
      if c.isDigit then number (Json.Number.magnitude false (c :: rest))
      else .error (mismatch expected (c :: rest))
  write value := (toString (toInt value)).toList
where
  number : Reading Json.Number → Reading α
    | .error e => .error e
    | .ok (.integer n, rest) =>
      match ofInt? n with
      | some value => .ok (value, rest)
      | none => .error (.outOfRange (.integer n) expected)
    | .ok (.double _, _) => .error (.wrongType .fractional expected)

/-- A natural number of 64 bits. -/
def u64 : Codec UInt64 :=
  ofInteger "u64" (fun n => if 0 ≤ n ∧ n < UInt64.size then some n.toNat.toUInt64 else none)
    fun x => (x.toNat : Int)

/-- A natural number of 16 bits. -/
def u16 : Codec UInt16 :=
  ofInteger "u16" (fun n => if 0 ≤ n ∧ n < UInt16.size then some n.toNat.toUInt16 else none)
    fun x => (x.toNat : Int)

/-- An integer of 64 bits. -/
def i64 : Codec Int64 :=
  ofInteger "i64"
    (fun n =>
      if Int64.minValue.toInt ≤ n ∧ n ≤ Int64.maxValue.toInt then some (Int64.ofInt n) else none)
    Int64.toInt

/-- Any value. -/
def json : Codec Json where
  read := Json.read
  write := Json.write

/-- A value or, for `none`, null. -/
def nullable {α : Type} (read : Nat → List Char → Reading α) (levels : Nat) (text : List Char) :
    Reading (Option α) :=
  match skipBlank text with
  | 'n' :: rest => (Json.word ['u', 'l', 'l'] rest).map (none, ·)
  | rest => (read levels rest).map fun (value, rest) => (some value, rest)

/-! ## Choices -/

/-- One of several names, as a string or as the key of an object whose value is null. -/
def choice {α : Type} (options : List (String × α)) (name : α → String) : Codec α where
  read levels text :=
    match skipBlank text with
    | [] => .error .truncated
    | '"' :: rest =>
      match Json.readString rest with
      | .error e => .error e
      | .ok (key, rest) => (pick key).map (·, rest)
    | '{' :: rest =>
      match levels with
      | 0 => .error .malformed
      | _ + 1 => keyed rest
    | _ => .error .malformed
  write value := Json.writeString (name value)
where
  pick (key : String) : Except ReadError α :=
    match options.lookup key with
    | some value => .ok value
    | none => .error (.unknownChoice key (options.map (·.1)))
  /-- The key, its colon, null and the closing brace. -/
  keyed (text : List Char) : Reading α :=
    match skipBlank text with
    | [] => .error .truncated
    | '"' :: rest =>
      match Json.readString rest with
      | .error e => .error e
      | .ok (key, rest) =>
        match pick key with
        | .error e => .error e
        | .ok value =>
          match Json.colon rest with
          | .error e => .error e
          | .ok rest => closing value (skipBlank rest)
    | rest => .error (mismatch "variant identifier" rest)
  closing (value : α) (text : List Char) : Reading α :=
    match text with
    | 'n' :: rest =>
      match Json.word ['u', 'l', 'l'] rest with
      | .error e => .error e
      | .ok rest => (Json.closeObject rest).map (value, ·)
    | [] => .error .truncated
    | _ => .error (mismatch "unit" text)

/-! ## Lists -/

/-- A list of items of one type. -/
def list {α : Type} (item : Codec α) : Codec (List α) where
  read levels text :=
    match skipBlank text with
    | [] => .error .truncated
    | '[' :: rest =>
      match levels with
      | 0 => .error .malformed
      | levels + 1 => Json.items (item.read levels) (rest.length + 1) true rest
    | rest => .error (mismatch "a sequence" rest)
  write values := '[' :: (joined (values.map item.write) ++ [']'])
where
  /-- Texts with commas between them. -/
  joined : List (List Char) → List Char
    | [] => []
    | [t] => t
    | t :: ts => t ++ ',' :: joined ts

end Codec

end ResumableUpload
