import ResumableUpload.Client.Client
import ResumableUpload.Transfer.Session
import ResumableUpload.Wire.Message

/-!
# Sessions on a server

The four calls of a session as requests. An address that the server has advertised for a call goes
before the one that follows from the session's name.

A list of parts comes in pages. Each page says where it begins and how long pages are, or that is as
it was asked for; the next page begins where this one ends, and the last page is one that is empty
or reaches the total. A commit that the server has only accepted is an error with a hint when to try
again.
-/

namespace ResumableUpload

/-- A session on a server, with the attributes that its file will have. -/
structure RemoteSession where
  client : Client
  info : SessionInfo
  attributes : Option Json
  deriving Repr

namespace RemoteSession

/-- A session as the server describes it. -/
def ofInfo (client : Client) (info : SessionInfo) : RemoteSession := ⟨client, info, none⟩

/-- The session as an upload sees it. -/
def session (s : RemoteSession) : Session := s.info.session

/-- The address of a call. -/
def endpoint (s : RemoteSession) (advertised : Endpoints → String) (ending : String) : String :=
  match (s.info.endpoints.map advertised).filter fun url => ¬ url.isEmpty with
  | some url => url
  | none => s.client.baseUrl ++ "/files/upload_sessions/" ++ s.info.id ++ ending

/-! ## Listing the parts -/

/-- The length of pages that is asked for. -/
def pageLimit : UInt64 := 1000

/-- The request for a page. -/
def pageRequest (s : RemoteSession) (offset limit : UInt64) : Except ClientError Http.Request :=
  s.client.request? .get (s.endpoint (·.listParts) "/parts") [] []
    [("offset", toString offset), ("limit", toString limit)]

/-- The length of the pages that a page asks for, if it is a length. -/
def pageLength (page : PartsPage) (limit : UInt64) : Except ClientError UInt64 :=
  match page.limit with
  | none => .ok limit
  | some reported =>
    if 0 < reported.toInt then .ok reported.toUInt64
    else .error (.invalidPaging ("server reported limit " ++ toString reported.toInt ++
      " for a request of " ++ toString limit))

/-- Where the next page begins. The sum wraps at 64 bits. -/
def pageStop (page : PartsPage) (offset length : UInt64) : UInt64 :=
  page.offset.getD offset + length

/-- Goes on with a page, or with what has come instead: there is a next page to ask for, or the walk
is over. -/
def walkOn (w : Walk) (reply : Except ClientError PartsPage) : ForInStep Walk :=
  match reply with
  | .error e => .done { w with parts := .error e }
  | .ok page =>
    match pageLength page w.limit with
    | .error e => .done { w with parts := .error e }
    | .ok length =>
      let stop := pageStop page w.offset length
      let parts := w.parts.map (· ++ page.entries)
      if page.entries.isEmpty ∨ page.totalCount ≤ stop then .done ⟨stop, length, parts⟩
      else .yield ⟨stop, length, parts⟩

/-- Asks for the next page. -/
def turnPage (s : RemoteSession) (w : Walk) : Query World (ForInStep Walk) :=
  (s.client.fetch PartsPage.codec (s.pageRequest w.offset w.limit)).map (walkOn w)

/-- Every part that the server holds. Where the next page begins is up to the server, and so is
whether there is a last one: nothing keeps it from sending the same page over and over. -/
def listParts (s : RemoteSession) : Program World (Except ClientError (List Part)) :=
  .loop s.turnPage ⟨0, pageLimit, .ok []⟩ fun last => .done last.parts

/-! ## The other calls -/

/-- The range of a part of the file, in the words of a header. -/
def contentRange (offset length : Nat) (fileSize : UInt64) : String :=
  "bytes " ++ toString offset ++ "-" ++ toString (offset + length - 1) ++ "/" ++ toString fileSize

/-- The request that sends a part. -/
def partRequest (s : RemoteSession) (bytes : Bytes) (offset : Nat) (fileSize : UInt64) :
    Except ClientError Http.Request :=
  s.client.request? .put (s.endpoint (·.uploadPart) "")
    [("content-type", "application/octet-stream"), ("digest", (Sha1.hash bytes).header),
      ("content-range", contentRange offset bytes.length fileSize)]
    bytes []

/-- Sends a part. -/
def sendPart (s : RemoteSession) (bytes : Bytes) (offset : Nat) (fileSize : UInt64) :
    Program World (Except ClientError Part) :=
  ((s.client.fetch PartReply.codec (s.partRequest bytes offset fileSize)).map
    (·.map (·.part))).program

/-- The request that commits the parts. -/
def commitRequest (s : RemoteSession) (digest : Sha1.Digest) (parts : List Part) :
    Except ClientError Http.Request :=
  s.client.postJson? (s.endpoint (·.commit) "/commit") [("digest", digest.header)]
    CommitRequest.codec ⟨parts, s.attributes⟩

/-- How long to wait where the server does not say. -/
def defaultRetry : Span := .ofSeconds 5

/-- A natural number of 64 bits in decimal digits, perhaps after a plus sign. -/
def seconds? (text : String) : Option Nat :=
  let digits := match text.toList with
    | '+' :: rest => rest
    | all => all
  if digits.isEmpty ∨ ¬ digits.all Char.isDigit then none
  else (Text.number? 10 digits).filter (· < UInt64.size)

/-- When to ask again: what the first header of that name says in plain characters. -/
def retryHint (response : Http.Response) : Span :=
  let hint := do
    let value ← Http.header? "retry-after" response.headers
    if value.toList.all fun c => c == '\t' || (' ' ≤ c && c < '\x7f') then
      seconds? (Text.trim value)
    else none
  (hint.map Span.ofSeconds).getD defaultRetry

/-- The outcome of a commit that has been granted. -/
def commitOutcome (response : Http.Response) : Except ClientError RemoteFile :=
  if response.status = 202 then .error (.commitPending (retryHint response))
  else
    match Client.readBody FileList.codec response with
    | .error e => .error e
    | .ok files =>
      match files.entries with
      | file :: _ => .ok file
      | [] => .error (.unexpectedResponse "commit returned no file")

/-- Commits the parts to a file. -/
def commit (s : RemoteSession) (digest : Sha1.Digest) (parts : List Part) :
    Program World (Except ClientError RemoteFile) :=
  ((s.client.sendGranted (s.commitRequest digest parts)).map (·.bind commitOutcome)).program

/-- The request that discards the session. -/
def discardRequest (s : RemoteSession) : Except ClientError Http.Request :=
  s.client.request? .delete (s.endpoint (·.abort) "") [] [] []

/-- Discards the session; the answer tells whether the server has agreed. -/
def discard (s : RemoteSession) : Program World (Except ClientError Bool) :=
  ((s.client.send s.discardRequest).map (·.map (·.isSuccess))).program

/-! ## As the session of an upload -/

/-- A client's error is one of the session. -/
def asTransfer {α : Type} (result : Except ClientError α) : Except (TransferError ClientError) α :=
  result.mapError .session

/-- What each call of an upload means on the server. -/
def meaning (s : RemoteSession) : (call : TransferCall) → Program World (call.Answer ClientError)
  | .listParts => do pure (asTransfer (← s.listParts))
  | .sendPart bytes offset fileSize => do pure (asTransfer (← s.sendPart bytes offset fileSize))
  | .commit digest parts => do pure (asTransfer (← s.commit digest parts))
  | .discard => do pure (asTransfer (← s.discard))
  | .report progress => World.report progress
  | .pause span => World.pause span

/-- An upload's program, with this session. -/
def perform {α : Type} (s : RemoteSession) (p : Program (Transfer ClientError) α) :
    Program World α :=
  p.interpret s.meaning

end RemoteSession

end ResumableUpload
