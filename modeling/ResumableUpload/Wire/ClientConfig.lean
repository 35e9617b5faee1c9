import ResumableUpload.Json.Record
import ResumableUpload.Text.Basic
import ResumableUpload.Time.Span

/-!
# Connection settings
-/

namespace ResumableUpload

/-- How to reach the server, and as whom. -/
structure ClientConfig where
  apiUrl : String
  uploadUrl : String
  accessToken : String
  timeoutSeconds : UInt64
  userAgent : String
  deriving DecidableEq, Repr

namespace ClientConfig

/-- The settings where none are given. -/
def default : ClientConfig where
  apiUrl := "https://api.box.com/2.0"
  uploadUrl := "https://upload.box.com/api/2.0"
  accessToken := ""
  timeoutSeconds := 60
  userAgent := "boxkit/0.1.0"

def fields : Fields (String × String × String × UInt64 × String × Unit) :=
  .cons (.defaulted "api_url" .text default.apiUrl) <|
  .cons (.defaulted "upload_url" .text default.uploadUrl) <|
  .cons (.defaulted "access_token" .text default.accessToken) <|
  .cons (.defaulted "timeout_secs" .u64 default.timeoutSeconds) <|
  .cons (.defaulted "user_agent" .text default.userAgent) .nil

def codec : Codec ClientConfig :=
  .record "ClientConfig" fields
    (fun c => (c.apiUrl, c.uploadUrl, c.accessToken, c.timeoutSeconds, c.userAgent, ()))
    fun (apiUrl, uploadUrl, accessToken, timeoutSeconds, userAgent, ()) =>
      ⟨apiUrl, uploadUrl, accessToken, timeoutSeconds, userAgent⟩

/-- The name of the environment variable that holds an access token. -/
def tokenVariable : String := "BOXKIT_ACCESS_TOKEN"

/-- The settings with the token of the environment, cut at both ends; a blank one does not count. -/
def withToken (c : ClientConfig) : Option String → ClientConfig
  | none => c
  | some token => if Text.isBlankText token then c else { c with accessToken := Text.trim token }

/-- How long a request may take. -/
def timeout (c : ClientConfig) : Span := .ofSeconds c.timeoutSeconds.toNat

end ClientConfig

end ResumableUpload
