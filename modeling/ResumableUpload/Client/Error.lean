import ResumableUpload.Transfer.Error
import ResumableUpload.Wire.Message

/-!
# Client errors

What can go wrong between a client and its server. An error that the server itself reports keeps its
information (`ofReply`): the code and the message of a body that reads as an error, or else the body
as it is.
-/

namespace ResumableUpload

/-- Why there is no usable reply to a request. -/
inductive HttpFault
  /-- The request cannot be built: its address or one of its headers is none. -/
  | builder
  /-- There is no reply. -/
  | request
  /-- The reply is not of the expected type. -/
  | decode
  deriving DecidableEq, Repr

def HttpFault.message : HttpFault → String
  | .builder => "builder error"
  | .request => "error sending request"
  | .decode => "error decoding response body"

/-- What went wrong. -/
inductive ClientError
  | http (fault : HttpFault)
  | json (cause : String)
  | io (cause : String)
  /-- The server has refused. -/
  | api (status : Nat) (code message : String)
  /-- The server needs more time for a commit. -/
  | commitPending (retryAfter : Span)
  | invalidPaging (cause : String)
  | unexpectedResponse (cause : String)
  | config (cause : String)
  deriving DecidableEq, Repr

namespace ClientError

def message : ClientError → String
  | .http fault => "HTTP error: " ++ fault.message
  | .json cause => "JSON error: " ++ cause
  | .io cause => "I/O error: " ++ cause
  | .api status code message =>
    "API error " ++ toString status ++ " (" ++ code ++ "): " ++ message
  | .commitPending retryAfter =>
    "commit accepted but parts are still processing; retry in " ++ retryAfter.text
  | .invalidPaging cause => "invalid paging: " ++ cause
  | .unexpectedResponse cause => "unexpected response: " ++ cause
  | .config cause => "configuration error: " ++ cause

/-- When to try again, if the server has said so. -/
def retryAfter : ClientError → Option Span
  | .commitPending retryAfter => some retryAfter
  | _ => none

instance : Fault ClientError := ⟨message, retryAfter⟩

/-- The error of a refusal with this status and body. A body that reads as an error counts only if
it says something. -/
def ofReply (status : Nat) (body : String) : ClientError :=
  match ErrorBody.codec.decode body with
  | .ok e => if e.code.isEmpty ∧ e.message.isEmpty then .api status "" body
    else .api status e.code e.message
  | .error _ => .api status "" body

end ClientError

end ResumableUpload
