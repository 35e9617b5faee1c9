/-!
# Byte strings

Content is a list of bytes. A list, not a packed array, because everything that is said about
content here is said with `take`, `drop` and `++`: a part of a file is a `slice` of it, and a
stream delivers the list from left to right.
-/

namespace ResumableUpload

/-- A byte string. -/
abbrev Bytes := List UInt8

namespace Bytes

/-- The UTF-8 bytes of a text. -/
def ofText (text : String) : Bytes := text.toUTF8.toList

/-- The text that bytes spell in UTF-8. -/
def text? (bytes : Bytes) : Option String := String.fromUTF8? ⟨bytes.toArray⟩

/-- The bytes from `start` on, at most `length` of them. -/
def slice (content : Bytes) (start length : Nat) : Bytes := (content.drop start).take length

theorem length_slice (content : Bytes) (start length : Nat) :
    (slice content start length).length = min length (content.length - start) := by
  simp [slice]

/-- One hexadecimal digit, in lower case. -/
def hexDigit (n : Nat) : Char :=
  if n < 10 then Char.ofNat (48 + n) else Char.ofNat (87 + n)

/-- Two lower-case hexadecimal digits for each byte. -/
def hex (bytes : Bytes) : String :=
  String.ofList (bytes.flatMap fun b => [hexDigit (b.toNat / 16), hexDigit (b.toNat % 16)])

end Bytes

end ResumableUpload
