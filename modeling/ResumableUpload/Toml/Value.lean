/-!
# TOML values

A table remembers how it came about, since that decides what may still be added to it: the table of
a header is added to by the lines below the header only; a table that a longer header implies may
get a header of its own; a table of dotted keys is added to by dotted keys and longer headers; and
an inline table is complete. A header in double brackets adds an element to a list of tables, and
headers and lines below it go to the last element.
-/

namespace ResumableUpload

/-- How a table came about. -/
inductive Toml.Origin
  | header
  | implied
  | dotted
  | inline
  deriving DecidableEq, Repr

/-- A TOML value. Fractional numbers and points in time are kept as they are spelled. The last
element of a list of tables comes first. -/
inductive Toml
  | string (value : String)
  | integer (value : Int)
  | boolean (value : Bool)
  | fractional (spelling : String)
  | moment (spelling : String)
  | list (items : List Toml)
  | table (origin : Toml.Origin) (members : List (String × Toml))
  | tables (elements : List (List (String × Toml)))
  deriving Repr

namespace Toml

/-- The members of a table, in the order in which they came. -/
abbrev Members := List (String × Toml)

/-- The members with the value of a key replaced, or added at the end. -/
def set (key : String) (value : Toml) : Members → Members
  | [] => [(key, value)]
  | (k, v) :: rest => if k = key then (k, value) :: rest else (k, v) :: set key value rest

/-- Changes the table at the end of a path. Tables that are missing on the way come about as
`created`; dotted keys may not go through the table of a header. -/
def change (created : Origin) (f : Origin → Members → Option Members) :
    List String → Origin → Members → Option Members
  | [], origin, members => f origin members
  | key :: path, _, members =>
    match members.lookup key with
    | none => do
      let child ← change created f path created []
      pure (set key (.table created child) members)
    | some (.table origin child) =>
      if origin = .inline ∨ (created = .dotted ∧ origin = .header) then none
      else do
        let child ← change created f path origin child
        pure (set key (.table origin child) members)
    | some (.tables (last :: before)) => do
      let last ← change created f path .header last
      pure (set key (.tables (last :: before)) members)
    | some _ => none

/-- Adds the value of a key that may be dotted; a key has one value. -/
def define (path : List String) (key : String) (value : Toml) (members : Members) :
    Option Members :=
  change .dotted
    (fun origin members =>
      if path.isEmpty ∨ origin = .dotted then
        if (members.lookup key).isSome then none else some (members ++ [(key, value)])
      else none)
    path .header members

/-- Opens the table of a header. -/
def openTable (path : List String) (key : String) (members : Members) : Option Members :=
  change .implied
    (fun _ members =>
      match members.lookup key with
      | none => some (members ++ [(key, .table .header [])])
      | some (.table .implied child) => some (set key (.table .header child) members)
      | some _ => none)
    path .header members

/-- Adds an element to the list of tables of a header. -/
def openElement (path : List String) (key : String) (members : Members) : Option Members :=
  change .implied
    (fun _ members =>
      match members.lookup key with
      | none => some (members ++ [(key, .tables [[]])])
      | some (.tables elements) => some (set key (.tables ([] :: elements)) members)
      | some _ => none)
    path .header members

/-- Adds the value of a key below the header of a table. -/
def defineBelow (header : List String) (path : List String) (key : String) (value : Toml)
    (members : Members) : Option Members :=
  change .implied (fun _ members => define path key value members) header .header members

end Toml

end ResumableUpload
