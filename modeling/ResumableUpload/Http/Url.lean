import ResumableUpload.Http.Host

/-!
# Addresses

An absolute address of a resource on the web: a scheme (`http` or `https`), perhaps a user, a host,
perhaps a port number, a path and perhaps a query. A fragment is read over and dropped.

Reading is forgiving: control characters and blanks around the text and tabs and line ends inside it
do not count, a backslash is a slash, and what may not stand in a path or a query is
percent-encoded. The path is kept as its segments, with `.` and `..` resolved while they are read
(`resolve`).
-/

namespace ResumableUpload

/-- An address. -/
structure Url where
  secure : Bool
  user : Option (List Char × Option (List Char))
  host : Host
  portNumber : UInt16
  path : List (List Char)
  query : Option (List Char)
  deriving DecidableEq, Repr

namespace Url

/-- The port number that a scheme stands for. -/
def defaultPortNumber (secure : Bool) : UInt16 := if secure then 443 else 80

/-- A slash of either kind. -/
def isSlash (c : Char) : Bool := c == '/' || c == '\\'

/-- Does the host of an address end here? -/
def endsAuthority (c : Char) : Bool := isSlash c || c == '?' || c == '#'

/-! ## Paths -/

/-- May a character stand for itself in a path? -/
def isPlainInPath (c : Char) : Bool :=
  ' ' < c && c < '\x7f' && !"\"#<>?\x60\x7b\x7d".toList.contains c

/-- May a character stand for itself in a query? -/
def isPlainInQuery (c : Char) : Bool :=
  ' ' < c && c < '\x7f' && !"\"#<>'".toList.contains c

/-- Is the text a dot, plain or encoded? -/
def isDot : List Char → Bool
  | ['.'] => true
  | ['%', '2', e] => e == 'e' || e == 'E'
  | _ => false

/-- Is the text two dots, each plain or encoded? -/
def isDoubleDot : List Char → Bool
  | '.' :: rest => isDot rest
  | '%' :: a :: b :: rest => isDot ['%', a, b] && isDot rest
  | _ => false

/-- Does the text name a drive, such as `C:`? -/
def isDrive : List Char → Bool
  | [letter, mark] => letter.isAlpha && (mark == ':' || mark == '|')
  | _ => false

/-- The path without its last segment; a drive stays. -/
def up (path : List (List Char)) : List (List Char) :=
  match path.getLast? with
  | none => []
  | some last => if isDrive last then path else path.dropLast

/-- Adds segments to a path. A single dot adds nothing and a double one takes the last segment away;
at the end either leaves an empty segment, so that the path ends in a slash. -/
def resolve (path : List (List Char)) : List (List Char) → List (List Char)
  | [] => path
  | segment :: rest =>
    let path :=
      if isDoubleDot segment then if rest.isEmpty then up path ++ [[]] else up path
      else if isDot segment then if rest.isEmpty then path ++ [[]] else path
      else path ++ [segment]
    resolve path rest

/-- The segments of the text of a path, encoded. -/
def segments (text : List Char) : List (List Char) :=
  let plain := text.map fun c => if isSlash c then '/' else c
  resolve [] ((plain.splitOn '/').map (Percent.encode isPlainInPath))

/-! ## Reading -/

/-- The text without blanks around it and without tabs and line ends. -/
def strip (text : List Char) : List Char :=
  let trimmed := (text.dropWhile (· ≤ ' ')).reverse.dropWhile (· ≤ ' ')
  trimmed.reverse.filter fun c => c != '\t' && c != '\n' && c != '\r'

/-- What stands before the first character that ends a piece, and the rest with it. -/
def cutAt (ends : Char → Bool) (text : List Char) : List Char × List Char :=
  (text.takeWhile fun c => !ends c, text.dropWhile fun c => !ends c)

/-- The scheme of a text, in lower case, and what stands behind its colon. -/
def scheme? (text : List Char) : Option (String × List Char) :=
  match cutAt (· == ':') text with
  | (first :: more, ':' :: rest) =>
    if first.isAlpha ∧ more.all fun c => c.isAlphanum || c == '+' || c == '-' || c == '.' then
      some ((String.ofList (first :: more)).toLower, rest)
    else none
  | _ => none

/-- The user before the last `@`, and the text behind it. -/
def splitUser (authority : List Char) : Option (List Char) × List Char :=
  match cutAt (· == '@') authority.reverse with
  | (host, _ :: user) => (some user.reverse, host.reverse)
  | (_, []) => (none, authority)

/-- A user's name and, behind a colon, the password. -/
def readUser (text : List Char) : Option (List Char × Option (List Char)) :=
  match cutAt (· == ':') text with
  | ([], []) => none
  | ([], [_]) => none
  | (name, []) => some (name, none)
  | (name, [_]) => some (name, none)
  | (name, _ :: word) => some (name, some word)

/-- The host and what stands behind its colon. A colon in square brackets belongs to the host. -/
def splitHost : Bool → List Char → List Char × List Char
  | _, [] => ([], [])
  | inBrackets, c :: rest =>
    if c = ':' ∧ ¬ inBrackets then ([], rest)
    else
      let (host, digits) := splitHost (c == '[' || (inBrackets && c != ']')) rest
      (c :: host, digits)

/-- A number of at most sixteen bits; an empty text leaves it to the scheme. -/
def portNumber? (secure : Bool) (text : List Char) : Option UInt16 :=
  if text.isEmpty then some (defaultPortNumber secure)
  else if text.all Char.isDigit then
    match Text.number? 10 text with
    | some n => if n < 65536 then some n.toUInt16 else none
    | none => none
  else none

/-- Reads an address. -/
def read? (text : String) : Option Url := do
  let (scheme, rest) ← scheme? (strip text.toList)
  let secure ← match scheme with
    | "http" => some false
    | "https" => some true
    | _ => none
  let (authority, rest) := cutAt endsAuthority (rest.dropWhile isSlash)
  let (user, address) := splitUser authority
  let (hostText, digits) := splitHost false address
  let host ← Host.read? hostText
  let portNumber ← portNumber? secure digits
  let (path, rest) := cutAt (fun c => c == '?' || c == '#') rest
  let query := match rest with
    | '?' :: rest => some (Percent.encode isPlainInQuery (cutAt (· == '#') rest).1)
    | _ => none
  pure
    { secure, user := user.bind readUser, host, portNumber, query
      path := segments (path.drop 1) }

/-! ## Use -/

/-- The address with more pairs in its query. -/
def withPairs (u : Url) (pairs : List (String × String)) : Url :=
  let added := "&".intercalate (pairs.map fun (key, value) => key ++ "=" ++ value)
  match u.query with
  | some (c :: old) => { u with query := some (c :: old ++ '&' :: added.toList) }
  | _ => { u with query := some added.toList }

/-- The path and the query, as they are sent. -/
def target (u : Url) : String :=
  let path := u.path.flatMap fun segment => '/' :: segment
  let query := match u.query with
    | none => []
    | some text => '?' :: text
  String.ofList (path ++ query)

/-- The host, and the port number if the scheme does not stand for it. -/
def authority (u : Url) : String :=
  if u.portNumber = defaultPortNumber u.secure then u.host.text
  else u.host.text ++ ":" ++ toString u.portNumber

end Url

end ResumableUpload
