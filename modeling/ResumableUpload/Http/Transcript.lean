import ResumableUpload.Http.Message

/-!
# Messages on the wire

Requests and responses of HTTP/1.1 as bytes. Each exchange has a connection of its own, so a
response ends with its connection, unless it says its length or comes in chunks.
-/

namespace ResumableUpload.Http

/-- The bytes of a request. -/
def Request.transcript (r : Request) : Bytes :=
  let first := r.method.name ++ " " ++ r.url.target ++ " HTTP/1.1"
  let length :=
    if r.body.isEmpty ∧ (r.method = .get ∨ r.method = .delete) then []
    else [("content-length", toString r.body.length)]
  let headers :=
    ("host", r.url.authority) :: ("accept", "*/*") :: ("connection", "close") ::
      (r.headers ++ length)
  let lines := first :: headers.map fun (name, value) => name ++ ": " ++ value
  Bytes.ofText ("\r\n".intercalate (lines ++ ["", ""])) ++ r.body

namespace Response

/-- The text of bytes; those that spell no text are read one by one, and each that is not ASCII
becomes a replacement character. -/
def readText (bytes : Bytes) : String :=
  (Bytes.text? bytes).getD <|
    String.ofList (bytes.map fun b => if b < 128 then Char.ofNat b.toNat else '\ufffd')

/-- A line without its end, and the bytes behind it. -/
def line? : Bytes → Option (Bytes × Bytes)
  | [] => none
  | 13 :: 10 :: rest => some ([], rest)
  | 10 :: rest => some ([], rest)
  | b :: rest => (line? rest).map fun (line, behind) => (b :: line, behind)

/-- The lines up to an empty one, and the bytes behind that. -/
def lines? : Nat → Bytes → Option (List String × Bytes)
  | 0, _ => none
  | fuel + 1, bytes => do
    let (line, rest) ← line? bytes
    if line.isEmpty then some ([], rest)
    else
      let (lines, rest) ← lines? fuel rest
      pure (readText line :: lines, rest)

/-- The status of a first line. -/
def status? (line : String) : Option Nat :=
  match line.toList.splitOn ' ' with
  | version :: code :: _ =>
    if version.take 5 = "HTTP/".toList ∧ code.length = 3 then Text.number? 10 code else none
  | _ => none

/-- A header from its line. -/
def headerOf? (line : String) : Option Header :=
  match line.toList.takeWhile (· != ':'), line.toList.dropWhile (· != ':') with
  | _, [] => none
  | name, _ :: value =>
    some ((String.ofList name).toLower, (String.ofList value).trimAscii.toString)

/-- A body in chunks, each with its length in front; the last one is empty. -/
def chunks? : Nat → Bytes → Option Bytes
  | 0, _ => none
  | fuel + 1, bytes => do
    let (line, rest) ← line? bytes
    let length ← Text.number? 16 ((readText line).toList.takeWhile fun c => c != ';' && c != ' ')
    if length = 0 then some []
    else if rest.length < length then none
    else do
      let (_, behind) ← line? (rest.drop length)
      pure (rest.take length ++ (← chunks? fuel behind))

/-- The body behind the headers. -/
def body? (headers : List Header) (rest : Bytes) : Option Bytes :=
  match header? "transfer-encoding" headers, header? "content-length" headers with
  | some coding, _ => if coding.toLower = "chunked" then chunks? (rest.length + 1) rest else none
  | none, some length => do
    let n ← Text.number? 10 length.toList
    if rest.length < n then none else some (rest.take n)
  | none, none => some rest

/-- Reads a response. Interim responses may stand before it. -/
def ofTranscript? : Nat → Bytes → Option Response
  | 0, _ => none
  | fuel + 1, bytes => do
    match ← lines? (bytes.length + 1) bytes with
    | ([], _) => none
    | (first :: others, rest) =>
      let status ← status? first
      let headers ← others.mapM headerOf?
      if 100 ≤ status ∧ status < 200 ∧ status ≠ 101 then ofTranscript? fuel rest
      else if status = 101 ∨ status = 204 ∨ status = 304 then some ⟨status, headers, ""⟩
      else some ⟨status, headers, readText (← body? headers rest)⟩

/-- Reads what a server has sent until it closed the connection. -/
def read? (bytes : Bytes) : Option Response := ofTranscript? (bytes.length + 1) bytes

end Response

end ResumableUpload.Http
