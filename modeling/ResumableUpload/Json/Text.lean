import ResumableUpload.Json.ReadError
import ResumableUpload.Text.Basic

/-!
# JSON strings and blanks

Reading a string resolves its escapes; a character outside the basic plane is a pair of escapes,
and half a pair is malformed. Writing escapes the quote, the backslash and the controls below the
space, those with a letter of their own by that letter, and leaves every other character as it is.
-/

namespace ResumableUpload.Json

/-- Space, tab, carriage return and line feed. -/
def isBlank (c : Char) : Bool := c = ' ' || c = '\t' || c = '\r' || c = '\n'

/-- The text from the first character on that is not blank. -/
def skipBlank (text : List Char) : List Char := text.dropWhile isBlank

/-- The rest of a word whose first letter has been seen. -/
def word : List Char → List Char → Except ReadError (List Char)
  | [], text => .ok text
  | _ :: _, [] => .error .truncated
  | w :: ws, c :: text => if c = w then word ws text else .error .malformed

/-! ## Reading strings -/

/-- The number of bytes of a text in UTF-8. -/
def utf8Size (text : List Char) : Nat := text.foldl (fun n c => n + c.utf8Size) 0

/-- The four hexadecimal digits of a numbered escape. A text that holds fewer than four more bytes
is truncated, whatever they are. -/
def hexQuad (text : List Char) : Reading Nat :=
  match text with
  | a :: b :: c :: d :: rest =>
    match Text.digitValue? a, Text.digitValue? b, Text.digitValue? c, Text.digitValue? d with
    | some a, some b, some c, some d => .ok (a * 4096 + b * 256 + c * 16 + d, rest)
    | _, _, _, _ => .error .malformed
  | short => if 4 ≤ utf8Size short then .error .malformed else .error .truncated

/-- The character of an escape by letter. -/
def letterEscape? (c : Char) : Option Char :=
  match c with
  | '"' => some '"'
  | '\\' => some '\\'
  | '/' => some '/'
  | 'b' => some '\x08'
  | 'f' => some '\x0c'
  | 'n' => some '\n'
  | 'r' => some '\r'
  | 't' => some '\t'
  | _ => none

/-- The second half of a pair of numbered escapes. -/
def lowSurrogate (text : List Char) : Reading Nat :=
  match text with
  | [] => .error .truncated
  | '\\' :: [] => .error .truncated
  | '\\' :: 'u' :: rest =>
    match hexQuad rest with
    | .error e => .error e
    | .ok (low, rest') =>
      if 0xDC00 ≤ low ∧ low ≤ 0xDFFF then .ok (low, rest') else .error .malformed
  | _ => .error .malformed

/-- The character of a numbered escape, after its `u`. -/
def numberedEscape (text : List Char) : Reading Char :=
  match hexQuad text with
  | .error e => .error e
  | .ok (n, rest) =>
    if 0xDC00 ≤ n ∧ n ≤ 0xDFFF then .error .malformed
    else if 0xD800 ≤ n ∧ n ≤ 0xDBFF then
      match lowSurrogate rest with
      | .error e => .error e
      | .ok (low, rest') =>
        .ok (Char.ofNat ((n - 0xD800) * 1024 + (low - 0xDC00) + 0x10000), rest')
    else .ok (Char.ofNat n, rest)

/-- The character of an escape, after its backslash. -/
def escape (text : List Char) : Reading Char :=
  match text with
  | [] => .error .truncated
  | c :: rest =>
    if c = 'u' then numberedEscape rest
    else
      match letterEscape? c with
      | some e => .ok (e, rest)
      | none => .error .malformed

theorem length_hexQuad {text rest : List Char} {n : Nat} (h : hexQuad text = .ok (n, rest)) :
    rest.length < text.length := by
  unfold hexQuad at h
  split at h
  · split at h
    · cases h; simp only [List.length_cons]; omega
    · cases h
  · split at h <;> cases h

theorem length_lowSurrogate {text rest : List Char} {n : Nat}
    (h : lowSurrogate text = .ok (n, rest)) : rest.length < text.length := by
  unfold lowSurrogate at h
  split at h
  · cases h
  · cases h
  · split at h
    · cases h
    · next hq =>
      have := length_hexQuad hq
      split at h
      · cases h; simp only [List.length_cons]; omega
      · cases h
  · cases h

theorem length_numberedEscape {text rest : List Char} {c : Char}
    (h : numberedEscape text = .ok (c, rest)) : rest.length < text.length := by
  unfold numberedEscape at h
  split at h
  · cases h
  · next hq =>
    have := length_hexQuad hq
    split at h
    · cases h
    · split at h
      · split at h
        · cases h
        · next hl =>
          have := length_lowSurrogate hl
          have e := (Prod.mk.inj (Except.ok.inj h)).2
          subst e; omega
      · have e := (Prod.mk.inj (Except.ok.inj h)).2
        subst e; omega

theorem length_escape {text rest : List Char} {c : Char} (h : escape text = .ok (c, rest)) :
    rest.length < text.length := by
  unfold escape at h
  split at h
  · cases h
  · split at h
    · have := length_numberedEscape h
      simp only [List.length_cons]; omega
    · split at h
      · cases h; simp
      · cases h

/-- The characters of a string, after its opening quote. -/
def stringChars (text : List Char) : Reading (List Char) :=
  match text with
  | [] => .error .truncated
  | '"' :: rest => .ok ([], rest)
  | '\\' :: rest =>
    match h : escape rest with
    | .error e => .error e
    | .ok (c, rest') =>
      have := length_escape h
      (stringChars rest').map fun (cs, r) => (c :: cs, r)
  | c :: rest =>
    if c.toNat < 32 then .error .malformed
    else (stringChars rest).map fun (cs, r) => (c :: cs, r)
termination_by text.length

/-- A string, after its opening quote. -/
def readString (text : List Char) : Reading String :=
  (stringChars text).map fun (cs, rest) => (String.ofList cs, rest)

/-! ## Writing strings -/

/-- A character as a string holds it. -/
def escaped (c : Char) : List Char :=
  if c = '"' then ['\\', '"']
  else if c = '\\' then ['\\', '\\']
  else if c = '\x08' then ['\\', 'b']
  else if c = '\x0c' then ['\\', 'f']
  else if c = '\n' then ['\\', 'n']
  else if c = '\r' then ['\\', 'r']
  else if c = '\t' then ['\\', 't']
  else if c.toNat < 32 then
    ['\\', 'u', '0', '0', Nat.digitChar (c.toNat / 16), Nat.digitChar (c.toNat % 16)]
  else [c]

/-- A text between quotes. -/
def writeString (text : String) : List Char := '"' :: (text.toList.flatMap escaped ++ ['"'])

end ResumableUpload.Json
