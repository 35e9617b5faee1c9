import ResumableUpload.Time.Span

/-!
# Transfer errors

What can end an attempt to upload. Errors of the session itself are of a type of its own; all that
is asked of it is a text and, perhaps, a hint when to try again (`Fault`).
-/

namespace ResumableUpload

/-- An error of a collaborator: it can be shown, and it may say how long to wait. -/
class Fault (ε : Type) where
  message : ε → String
  retryAfter : ε → Option Span

/-- Why a session's geometry does not fit the file. -/
inductive GeometryFault
  | emptyParts
  | wrongCount (totalParts partSize fileSize expected : Nat)
  deriving DecidableEq, Repr

def GeometryFault.message : GeometryFault → String
  | .emptyParts => "part size is zero"
  | .wrongCount totalParts partSize fileSize expected =>
    toString totalParts ++ " parts of " ++ toString partSize ++ " bytes cannot hold " ++
      toString fileSize ++ " bytes (expected " ++ toString expected ++ ")"

/-- Why an attempt to upload ended without a file. -/
inductive TransferError (ε : Type)
  /-- The content could not be read. -/
  | io (cause : String)
  /-- The upload has been given up before. -/
  | aborted
  /-- The session failed. -/
  | session (cause : ε)
  /-- A part's bytes are gone from the stream, and the server does not hold them. -/
  | partUnavailable (offset : Nat)
  /-- The stream is shorter than the file. -/
  | truncatedStream (offset : Nat)
  /-- The session's parts cannot hold the file. -/
  | invalidGeometry (fault : GeometryFault)
  deriving DecidableEq, Repr

namespace TransferError

variable {ε : Type}

def message [Fault ε] : TransferError ε → String
  | .io cause => "I/O error: " ++ cause
  | .aborted => "the upload has been previously aborted; retry with a new upload session"
  | .session cause => "upload session error: " ++ Fault.message cause
  | .partUnavailable offset =>
    "part at offset " ++ toString offset ++
      " was already read from the stream but is not on the server"
  | .truncatedStream offset =>
    "content stream ended before the part at offset " ++ toString offset
  | .invalidGeometry fault => "invalid session geometry: " ++ fault.message

/-- How long the session asks to wait before the next attempt. -/
def retryAfter [Fault ε] : TransferError ε → Option Span
  | .session cause => Fault.retryAfter cause
  | _ => none

/-- Only failures of the session and of reading may go away by themselves. -/
def isResumable : TransferError ε → Bool
  | .session _ => true
  | .io _ => true
  | _ => false

end TransferError

end ResumableUpload
