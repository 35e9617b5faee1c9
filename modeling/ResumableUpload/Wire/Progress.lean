import ResumableUpload.Json.Record

/-!
# Progress snapshots

How far an upload is: bytes and parts accounted for, of how many.
-/

namespace ResumableUpload

/-- The stage of an upload. -/
inductive Status
  | pending
  | inProgress
  | committing
  | committed
  | aborted
  deriving DecidableEq, Repr

namespace Status

def name : Status → String
  | .pending => "pending"
  | .inProgress => "in_progress"
  | .committing => "committing"
  | .committed => "committed"
  | .aborted => "aborted"

/-- Every stage, in the order in which they are listed. -/
def all : List Status := [.pending, .inProgress, .committing, .committed, .aborted]

def codec : Codec Status := .choice (all.map fun s => (s.name, s)) name

/-- Is the upload still transferring or committing? -/
def isActive : Status → Bool
  | .inProgress => true
  | .committing => true
  | _ => false

end Status

/-- How far the upload of a session is. -/
structure Progress where
  sessionId : String
  status : Status
  totalBytes : UInt64
  transferredBytes : UInt64
  partsDone : UInt64
  totalParts : UInt64
  deriving DecidableEq, Repr

namespace Progress

def fields : Fields (String × Status × UInt64 × UInt64 × UInt64 × UInt64 × Unit) :=
  .cons (.required "session_id" .text) <|
  .cons (.required "status" Status.codec) <|
  .cons (.required "total_bytes" .u64) <|
  .cons (.required "transferred_bytes" .u64) <|
  .cons (.required "parts_done" .u64) <|
  .cons (.required "total_parts" .u64) .nil

def codec : Codec Progress :=
  .record "UploadProgress" fields
    (fun p => (p.sessionId, p.status, p.totalBytes, p.transferredBytes, p.partsDone, p.totalParts,
      ()))
    fun (sessionId, status, totalBytes, transferredBytes, partsDone, totalParts, ()) =>
      ⟨sessionId, status, totalBytes, transferredBytes, partsDone, totalParts⟩

/-- The transferred share in percent; zero for an upload of nothing. -/
def percentage (p : Progress) : Float :=
  if p.totalBytes = 0 then 0 else p.transferredBytes.toFloat / p.totalBytes.toFloat * 100

/-- The bytes that are not transferred yet. -/
def remainingBytes (p : Progress) : Nat := p.totalBytes.toNat - p.transferredBytes.toNat

end Progress

end ResumableUpload
