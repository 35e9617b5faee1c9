import ResumableUpload.Bytes.Sha1
import ResumableUpload.Client.Error
import ResumableUpload.Wire.ClientConfig
import ResumableUpload.Wire.SessionInfo
import ResumableUpload.World

/-!
# The client

A client knows where the server is and carries an access token. Each of its requests is answered
with a value of an expected type or with an error: there is no reply, or the server refuses, or its
reply does not read.
-/

namespace ResumableUpload

/-- The address of the server without slashes at its end, and what every request carries. -/
structure Client where
  baseUrl : String
  token : String
  userAgent : String
  timeout : Span
  deriving DecidableEq, Repr

namespace Client

/-- The client of these settings. -/
def ofConfig (config : ClientConfig) : Except ClientError Client :=
  if config.accessToken.isEmpty then .error (.config "access token is not set")
  else if ¬ Http.isHeaderValue config.accessToken then
    .error (.config "access token is not a valid header")
  else if ¬ Http.isHeaderValue config.userAgent then .error (.http .builder)
  else .ok
    { baseUrl := String.ofList
        ((config.uploadUrl.toList.reverse.dropWhile (· == '/')).reverse)
      token := config.accessToken
      userAgent := config.userAgent
      timeout := config.timeout }

/-! ## Requests -/

/-- The value of the header that says who is asking: a user in the address goes before the token. -/
def authorization (c : Client) (url : Url) : String :=
  match url.user with
  | none => "Bearer " ++ c.token
  | some (name, password) =>
    match Bytes.text? (Percent.decode name), password.map (Bytes.text? ∘ Percent.decode) with
    | none, _ => "Bearer " ++ c.token
    | some name, some (some password) => basic (name ++ ":" ++ password)
    | some name, _ => if name.isEmpty then "Bearer " ++ c.token else basic (name ++ ":")
where
  basic (pair : String) : String := "Basic " ++ Base64.encode (Bytes.ofText pair)

/-- A request, if the text is an address. -/
def request? (c : Client) (method : Http.Method) (url : String) (headers : List Http.Header)
    (body : Bytes) (pairs : List (String × String)) : Except ClientError Http.Request :=
  match Url.read? url with
  | none => .error (.http .builder)
  | some url =>
    .ok
      { method := method
        url := if pairs.isEmpty then url else url.withPairs pairs
        headers :=
          ("authorization", c.authorization url) :: ("user-agent", c.userAgent) :: headers
        body := body }

/-- Sends a request. -/
def send (c : Client) (request : Except ClientError Http.Request) :
    Query World (Except ClientError Http.Response) :=
  match request with
  | .error e => .told (.error e)
  | .ok request =>
    (World.exchange request c.timeout).map fun
      | none => .error (.http .request)
      | some response => .ok response

/-- A response, if it grants the request. -/
def granted (response : Http.Response) : Except ClientError Http.Response :=
  if response.isSuccess then .ok response
  else .error (.ofReply response.status response.body)

/-- Sends a request that has to be granted. -/
def sendGranted (c : Client) (request : Except ClientError Http.Request) :
    Query World (Except ClientError Http.Response) :=
  (c.send request).map (·.bind granted)

/-- The value that a response spells. -/
def readBody {α : Type} (codec : Codec α) (response : Http.Response) : Except ClientError α :=
  match codec.decode response.body with
  | .ok value => .ok value
  | .error _ => .error (.http .decode)

/-- Sends a request that has to be granted, and reads the reply. -/
def fetch {α : Type} (c : Client) (codec : Codec α) (request : Except ClientError Http.Request) :
    Query World (Except ClientError α) :=
  (c.sendGranted request).map (·.bind (readBody codec))

/-- A request with a body in JSON. -/
def postJson? {α : Type} (c : Client) (url : String) (headers : List Http.Header) (codec : Codec α)
    (value : α) : Except ClientError Http.Request :=
  c.request? .post url (("content-type", "application/json") :: headers)
    (Bytes.ofText (codec.encode value)) []

/-! ## Sessions -/

/-- Opens a session at this address. -/
def openAt (c : Client) (url : String) (request : CreateRequest) :
    Program World (Except ClientError SessionInfo) :=
  (c.fetch SessionInfo.codec (c.postJson? url [] CreateRequest.codec request)).program

/-- Opens a session for a new file in a folder. -/
def create (c : Client) (folderId : String) (fileSize : UInt64) (fileName : String) :
    Program World (Except ClientError SessionInfo) :=
  c.openAt (c.baseUrl ++ "/files/upload_sessions") ⟨some folderId, fileSize, some fileName⟩

/-- Opens a session for a new version of a file. -/
def createVersion (c : Client) (fileId : String) (fileSize : UInt64) (fileName : Option String) :
    Program World (Except ClientError SessionInfo) :=
  c.openAt (c.baseUrl ++ "/files/" ++ fileId ++ "/upload_sessions") ⟨none, fileSize, fileName⟩

/-- Asks for a session that is open. -/
def look (c : Client) (sessionId : String) : Program World (Except ClientError SessionInfo) :=
  (c.fetch SessionInfo.codec
    (c.request? .get (c.baseUrl ++ "/files/upload_sessions/" ++ sessionId) [] [] [])).program

end Client

end ResumableUpload
