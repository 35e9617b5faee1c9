import ResumableUpload.Json.Number
import ResumableUpload.Json.Text

/-!
# JSON values

The members of an object are kept in the order of their keys, each key once. Reading puts them
there one after the other (`insert`), so the last of two members with one key stays, and the
written form of a value does not depend on the order in which its members were read.

Lists and objects nest: reading takes the number of levels that may still be opened, and each
bracket takes one.

An object that begins with the key `rawKey` stands for a raw value, a JSON text in a string. What it
is read as is not decided here: `read` takes it for an object like any other, so it says something
about texts without such objects only.
-/

namespace ResumableUpload

/-- A JSON value. -/
inductive Json
  | null
  | boolean (value : Bool)
  | number (value : Json.Number)
  | string (value : String)
  | list (items : List Json)
  | object (members : List (String × Json))
  deriving Repr

namespace Json

/-- The key that an object begins with if it stands for a raw value. -/
def rawKey : String := "$serde_json::private::RawValue"

/-- The members with one more, in the order of keys; a member of the same key is replaced. -/
def insert (key : String) (value : Json) : List (String × Json) → List (String × Json)
  | [] => [(key, value)]
  | (k, v) :: rest =>
    if key < k then (key, value) :: (k, v) :: rest
    else if key = k then (key, value) :: rest
    else (k, v) :: insert key value rest

/-! ## Writing -/

mutual

/-- The text of a value, without blanks. -/
def write : Json → List Char
  | .null => ['n', 'u', 'l', 'l']
  | .boolean true => ['t', 'r', 'u', 'e']
  | .boolean false => ['f', 'a', 'l', 's', 'e']
  | .number n => n.write
  | .string t => writeString t
  | .list items => '[' :: (writeItems items ++ [']'])
  | .object members => '\x7b' :: (writeMembers members ++ ['\x7d'])

def writeItems : List Json → List Char
  | [] => []
  | [item] => item.write
  | item :: rest => item.write ++ ',' :: writeItems rest

def writeMembers : List (String × Json) → List Char
  | [] => []
  | [(key, value)] => writeString key ++ ':' :: value.write
  | (key, value) :: rest => writeString key ++ ':' :: (value.write ++ ',' :: writeMembers rest)

end

/-! ## The frame of a list or an object -/

/-- The text of the next item of a list, or `none` if its closing bracket comes; `first` tells
whether an item has been read. -/
def nextItem (first : Bool) (text : List Char) : Except ReadError (Option (List Char)) :=
  match skipBlank text with
  | [] => .error .truncated
  | c :: rest =>
    if c = ']' then .ok none
    else if first then .ok (some (c :: rest))
    else if c = ',' then
      match skipBlank rest with
      | [] => .error .truncated
      | d :: rest' => if d = ']' then .error .malformed else .ok (some (d :: rest'))
    else .error .malformed

/-- The closing bracket of a list that is read to its end. -/
def closeList (text : List Char) : Except ReadError (List Char) :=
  match skipBlank text with
  | [] => .error .truncated
  | c :: rest => if c = ']' then .ok rest else .error .malformed

/-- The key of the next member of an object and the text behind it, or `none` if its closing brace
comes. -/
def nextKey (first : Bool) (text : List Char) :
    Except ReadError (Option (String × List Char)) :=
  match skipBlank text with
  | [] => .error .truncated
  | c :: rest =>
    if c = '\x7d' then .ok none
    else if first then quotedKey (c :: rest)
    else if c = ',' then
      match skipBlank rest with
      | [] => .error .truncated
      | rest' => quotedKey rest'
    else .error .malformed
where
  quotedKey : List Char → Except ReadError (Option (String × List Char))
    | '"' :: rest => (readString rest).map some
    | _ => .error .malformed

/-- The closing brace of an object that is read to its end. -/
def closeObject (text : List Char) : Except ReadError (List Char) :=
  match skipBlank text with
  | [] => .error .truncated
  | c :: rest => if c = '\x7d' then .ok rest else .error .malformed

/-- The colon between a key and its value. -/
def colon (text : List Char) : Except ReadError (List Char) :=
  match skipBlank text with
  | [] => .error .truncated
  | c :: rest => if c = ':' then .ok rest else .error .malformed

/-- The items of a list and the text behind its closing bracket. `item` reads one item. Each round
takes at least a character, so the length of the text bounds the rounds. -/
def items {α : Type} (item : List Char → Reading α) : Nat → Bool → List Char → Reading (List α)
  | 0, _, _ => .error .truncated
  | fuel + 1, first, text =>
    match nextItem first text with
    | .error e => .error e
    | .ok none => (closeList text).map ([], ·)
    | .ok (some rest) =>
      match item rest with
      | .error e => .error e
      | .ok (x, rest) =>
        match items item fuel false rest with
        | .error e => .error e
        | .ok (xs, rest) => .ok (x :: xs, rest)

/-- The members of an object, folded into `acc`, and the text behind its closing brace. -/
def members {α : Type} (member : α → String → List Char → Reading α) :
    Nat → Bool → α → List Char → Reading α
  | 0, _, _, _ => .error .truncated
  | fuel + 1, first, acc, text =>
    match nextKey first text with
    | .error e => .error e
    | .ok none => (closeObject text).map (acc, ·)
    | .ok (some (key, rest)) =>
      match member acc key rest with
      | .error e => .error e
      | .ok (acc, rest) => members member fuel false acc rest

/-! ## Reading -/

/-- One member of an object: `value` reads what stands behind the colon. -/
def member (value : List Char → Reading Json) (acc : List (String × Json)) (key : String)
    (text : List Char) : Reading (List (String × Json)) :=
  match colon text with
  | .error e => .error e
  | .ok rest => (value rest).map fun (v, rest') => (insert key v acc, rest')

/-- A value with at most `levels` nested brackets, and without raw values. -/
def read (levels : Nat) (text : List Char) : Reading Json :=
  match skipBlank text with
  | [] => .error .truncated
  | 'n' :: rest => (word ['u', 'l', 'l'] rest).map (.null, ·)
  | 't' :: rest => (word ['r', 'u', 'e'] rest).map (.boolean true, ·)
  | 'f' :: rest => (word ['a', 'l', 's', 'e'] rest).map (.boolean false, ·)
  | '-' :: rest => (Number.magnitude true rest).map fun (n, r) => (.number n, r)
  | '"' :: rest => (readString rest).map fun (t, r) => (.string t, r)
  | '[' :: rest =>
    match levels with
    | 0 => .error .malformed
    | levels + 1 =>
      (items (read levels) (rest.length + 1) true rest).map fun (xs, r) => (.list xs, r)
  | '{' :: rest =>
    match levels with
    | 0 => .error .malformed
    | levels + 1 =>
      (members (member (read levels)) (rest.length + 1) true [] rest).map
        fun (ms, r) => (.object ms, r)
  | c :: rest =>
    if c.isDigit then (Number.magnitude false (c :: rest)).map fun (n, r) => (.number n, r)
    else .error .malformed

end Json

end ResumableUpload
