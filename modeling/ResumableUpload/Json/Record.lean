import ResumableUpload.Json.Codec

/-!
# Codecs of records

A record is described by its fields in order: each has a name, a codec, and perhaps a value that it
takes when it is absent. From that one description come both ways of reading a record, as an object
whose members stand in any order and as a list of the fields in order, and the one way of writing
it.

Reading an object keeps a slot for each field. A member with the key of a field fills its slot, and
must find it empty; a member with another key is skipped; at the closing brace the empty slots are
filled with the values for absence, and the first field that has none is missing.
-/

namespace ResumableUpload

open Json (ReadError Reading)

/-- One field of a record. `absent` is its value when it is not there, and `write` answers `none`
for a value that is not written. -/
structure Field (α : Type) where
  name : String
  read : Nat → List Char → Reading α
  absent : Option α
  write : α → Option (List Char)

namespace Field

/-- A field that must be there and is always written. -/
def required {α : Type} (name : String) (c : Codec α) : Field α :=
  ⟨name, c.read, none, fun v => some (c.write v)⟩

/-- A field that is always written and need not be there. -/
def defaulted {α : Type} (name : String) (c : Codec α) (value : α) : Field α :=
  ⟨name, c.read, some value, fun v => some (c.write v)⟩

/-- A text that is neither written nor there when it is empty. -/
def textOrEmpty (name : String) : Field String :=
  ⟨name, Codec.text.read, some "", fun v => if v.isEmpty then none else some (Codec.text.write v)⟩

/-- A value that may be absent or null, and then is not written. -/
def optional {α : Type} (name : String) (c : Codec α) : Field (Option α) :=
  ⟨name, Codec.nullable c.read, some none, fun v => v.map c.write⟩

end Field

/-- The fields of a record in order; the record's value is the nested pair of theirs. -/
inductive Fields : Type → Type 1
  | nil : Fields Unit
  | cons {α β : Type} (head : Field α) (tail : Fields β) : Fields (α × β)

namespace Fields

/-- The number of fields. -/
def count : {τ : Type} → Fields τ → Nat
  | _, .nil => 0
  | _, .cons _ tail => tail.count + 1

/-- What has been read of each field so far. -/
def Slots : {τ : Type} → Fields τ → Type
  | _, .nil => Unit
  | _, @cons α _ _ tail => Option α × tail.Slots

/-- No field has been read. -/
def fresh : {τ : Type} → (fs : Fields τ) → fs.Slots
  | _, .nil => ()
  | _, .cons _ tail => (none, tail.fresh)

/-- What a member's key means to a record that has been read in part. -/
inductive Member (σ : Type)
  /-- No field has this name. -/
  | unknown
  /-- The field has been read before. -/
  | repeated
  /-- The field is read next. -/
  | wanted (read : Nat → List Char → Reading σ)

/-- Another field in front. -/
def Member.behind {σ τ : Type} (slot : τ) : Member σ → Member (τ × σ)
  | .unknown => .unknown
  | .repeated => .repeated
  | .wanted read => .wanted fun levels text =>
      (read levels text).map fun (s, rest) => ((slot, s), rest)

/-- The meaning of a key. -/
def member (key : String) : {τ : Type} → (fs : Fields τ) → fs.Slots → Member fs.Slots
  | _, .nil => fun _ => .unknown
  | _, @cons α _ head tail => fun (slots : Option α × tail.Slots) =>
    if head.name = key then
      match slots.1 with
      | some _ => .repeated
      | none => .wanted fun levels text =>
          (head.read levels text).map fun (value, rest) => ((some value, slots.2), rest)
    else (member key tail slots.2).behind slots.1

/-- The value of the record, once its object is closed. -/
def close : {τ : Type} → (fs : Fields τ) → fs.Slots → Except ReadError τ
  | _, .nil => fun _ => .ok ()
  | _, @cons α _ head tail => fun (slots : Option α × tail.Slots) =>
    match slots.1.or head.absent with
    | none => .error (.missingField head.name)
    | some value => (tail.close slots.2).map (value, ·)

/-- One member of an object: the slots after it. -/
def readMember {τ : Type} (fs : Fields τ) (levels : Nat) (slots : fs.Slots) (key : String)
    (text : List Char) : Reading fs.Slots :=
  match fs.member key slots with
  | .repeated => .error (.repeatedField key)
  | .unknown =>
    match Json.colon text with
    | .error e => .error e
    | .ok rest => (Json.Skip.value rest).map (slots, ·)
  | .wanted read =>
    match Json.colon text with
    | .error e => .error e
    | .ok rest => read levels rest

/-- The record in the form of an object, after its opening brace. -/
def readObject {τ : Type} (fs : Fields τ) (levels : Nat) (text : List Char) : Reading τ :=
  match Json.members (fs.readMember levels) (text.length + 1) true fs.fresh text with
  | .error e => .error e
  | .ok (slots, rest) => (fs.close slots).map (·, rest)

/-- The record in the form of a list, after its opening bracket. `whole` describes a record of the
right length, and `index` counts the fields before these. -/
def readList (whole : String) (levels : Nat) : {τ : Type} → Fields τ → Nat → Bool → List Char →
    Reading τ
  | _, .nil, _, _, text => (Json.closeList text).map ((), ·)
  | _, .cons head tail, index, first, text =>
    match Json.nextItem first text with
    | .error e => .error e
    | .ok none =>
      match head.absent with
      | none => .error (.wrongLength index whole)
      | some value =>
        (tail.readList whole levels (index + 1) first text).map fun (values, rest) =>
          ((value, values), rest)
    | .ok (some item) =>
      match head.read levels item with
      | .error e => .error e
      | .ok (value, rest) =>
        (tail.readList whole levels (index + 1) false rest).map fun (values, rest) =>
          ((value, values), rest)

/-- The members that are written. -/
def written : {τ : Type} → Fields τ → τ → List (List Char)
  | _, .nil, _ => []
  | _, .cons head tail, (value, values) =>
    match head.write value with
    | none => tail.written values
    | some text => (Json.writeString head.name ++ ':' :: text) :: tail.written values

end Fields

/-- The codec of a record. `title` is the name of its type in messages. -/
def Codec.record {α τ : Type} (title : String) (fields : Fields τ) (unpack : α → τ) (pack : τ → α) :
    Codec α where
  read levels text :=
    match Json.skipBlank text with
    | [] => .error .truncated
    | '{' :: rest =>
      match levels with
      | 0 => .error .malformed
      | levels + 1 => (fields.readObject levels rest).map fun (value, rest) => (pack value, rest)
    | '[' :: rest =>
      match levels with
      | 0 => .error .malformed
      | levels + 1 =>
        (fields.readList ("struct " ++ title ++ " with " ++ elements) levels 0 true rest).map
          fun (value, rest) => (pack value, rest)
    | rest => .error (Codec.mismatch ("struct " ++ title) rest)
  write value := '\x7b' :: (Codec.list.joined (fields.written (unpack value)) ++ ['\x7d'])
where
  elements : String :=
    if fields.count = 1 then "1 element" else toString fields.count ++ " elements"

end ResumableUpload
