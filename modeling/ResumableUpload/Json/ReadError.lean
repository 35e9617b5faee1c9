import ResumableUpload.Text.Quoted

/-!
# Why a text does not read

A text is read from left to right, and the first thing that goes wrong is the error. Either the
text is no JSON (`malformed`), or it ends too early (`truncated`), or it is JSON that does not fit
the type that is asked for; the remaining constructors say why not.
-/

namespace ResumableUpload.Json

/-- What stood where something else was expected. -/
inductive Found
  | null
  | boolean (value : Bool)
  | integer (value : Int)
  | fractional
  | text (value : String)
  | list
  | object
  deriving DecidableEq, Repr

/-- The first thing that went wrong. -/
inductive ReadError
  | malformed
  | truncated
  | missingField (name : String)
  | repeatedField (name : String)
  | wrongType (found : Found) (expected : String)
  | outOfRange (found : Found) (expected : String)
  | wrongLength (length : Nat) (expected : String)
  | unknownChoice (name : String) (choices : List String)
  | badInstant
  deriving DecidableEq, Repr

/-- A reading step: a value and the rest of the text. -/
abbrev Reading (α : Type) := Except ReadError (α × List Char)

/-- The three kinds of read errors. -/
inductive ReadError.Category
  | malformed
  | truncated
  | unsuitable
  deriving DecidableEq, Repr

def ReadError.category : ReadError → Category
  | .malformed => .malformed
  | .truncated => .truncated
  | _ => .unsuitable

/-- What was found, in words. -/
def Found.words : Found → String
  | .null => "null"
  | .boolean value => "boolean `" ++ (if value then "true" else "false") ++ "`"
  | .integer value => "integer `" ++ toString value ++ "`"
  | .fractional => "floating point"
  | .text value => "string " ++ Text.quoted value
  | .list => "sequence"
  | .object => "map"

/-- Why the text does not fit the type, in words. The other errors have no words of their own. -/
def ReadError.message? : ReadError → Option String
  | .missingField name => some ("missing field `" ++ name ++ "`")
  | .repeatedField name => some ("duplicate field `" ++ name ++ "`")
  | .wrongType found expected =>
    some ("invalid type: " ++ found.words ++ ", expected " ++ expected)
  | .outOfRange found expected =>
    some ("invalid value: " ++ found.words ++ ", expected " ++ expected)
  | .wrongLength length expected =>
    some ("invalid length " ++ toString length ++ ", expected " ++ expected)
  | .unknownChoice name choices =>
    some ("unknown variant `" ++ name ++ "`, expected one of " ++
      ", ".intercalate (choices.map fun c => "`" ++ c ++ "`"))
  | .malformed => none
  | .truncated => none
  | .badInstant => none

end ResumableUpload.Json
