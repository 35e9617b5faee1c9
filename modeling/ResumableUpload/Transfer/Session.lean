import ResumableUpload.Bytes.Sha1
import ResumableUpload.Program
import ResumableUpload.Transfer.Error
import ResumableUpload.Wire.File
import ResumableUpload.Wire.Part
import ResumableUpload.Wire.Progress
import ResumableUpload.Wire.SessionInfo

/-!
# Sessions as an upload sees them

A session has a name and a geometry, and it answers four calls: list the parts that it holds, take a
part, commit the parts to a file, and discard itself. An upload also reports its progress and,
between attempts, pauses. These six are the questions of an upload (`Transfer ε`), where `ε` is what
the session's own errors are.

An upload knows nothing else about its session. So whatever a session lists, stores, loses or
refuses, is a choice of answers, and a history of the upload's program.
-/

namespace ResumableUpload

/-- What stays the same about a session while an upload asks it for something. -/
structure Session where
  id : String
  totalParts : UInt64
  partSize : UInt64
  deriving DecidableEq, Repr

/-- The session that a server describes. -/
def SessionInfo.session (info : SessionInfo) : Session := ⟨info.id, info.totalParts, info.partSize⟩

/-! ## Geometry

A session holds a file in parts of one size, the last of which may be short. It fits a file if its
parts are not empty and it has exactly as many of them as the file needs. -/

namespace Geometry

/-- The number of parts of `partSize` bytes that `fileSize` bytes need. -/
def partCount (fileSize partSize : Nat) : Nat := (fileSize + partSize - 1) / partSize

/-- Does a session of `totalParts` parts fit the file? -/
def check (fileSize partSize totalParts : UInt64) : Except GeometryFault Unit :=
  if partSize = 0 then .error .emptyParts
  else
    let expected := partCount fileSize.toNat partSize.toNat
    if totalParts.toNat = expected then .ok ()
    else .error (.wrongCount totalParts.toNat partSize.toNat fileSize.toNat expected)

/-- The offsets of the parts of a file, in order. -/
def grid (fileSize partSize : Nat) : List Nat :=
  (List.range (partCount fileSize partSize)).map (· * partSize)

/-- The length of the part at an offset. -/
def partLength (fileSize partSize offset : Nat) : Nat := min partSize (fileSize - offset)

end Geometry

/-! ## The calls -/

/-- What an upload asks for. -/
inductive TransferCall
  /-- The parts that the session holds. -/
  | listParts
  /-- Take a part: these bytes of the file, from this offset on. -/
  | sendPart (bytes : Bytes) (offset : Nat) (fileSize : UInt64)
  /-- Make a file of these parts; the digest is the file's. -/
  | commit (digest : Sha1.Digest) (parts : List Part)
  /-- Forget the session. -/
  | discard
  /-- Note how far the upload is. -/
  | report (progress : Progress)
  /-- Let time pass. -/
  | pause (span : Span)
  deriving DecidableEq, Repr

namespace TransferCall

/-- What each call is answered with. -/
def Answer (ε : Type) : TransferCall → Type
  | .listParts => Except (TransferError ε) (List Part)
  | .sendPart _ _ _ => Except (TransferError ε) Part
  | .commit _ _ => Except (TransferError ε) RemoteFile
  | .discard => Except (TransferError ε) Bool
  | .report _ => Unit
  | .pause _ => Unit

/-- Is this one of the four calls that a session answers? -/
def isOfSession : TransferCall → Bool
  | .report _ => false
  | .pause _ => false
  | _ => true

end TransferCall

/-- The questions of an upload over sessions whose errors are of type `ε`. An upload repeats nothing
but by recursion on what is left of its parts, its attempts or its stream. -/
abbrev Transfer (ε : Type) : Signature := ⟨TransferCall, TransferCall.Answer ε, Empty⟩

instance (ε : Type) : (Transfer ε).Loopless := ⟨Empty.elim⟩

namespace Transfer

variable {ε : Type}

/-! Each call as a program of its own. -/

def listParts : Program (Transfer ε) (Except (TransferError ε) (List Part)) :=
  Program.put (S := Transfer ε) .listParts

def sendPart (bytes : Bytes) (offset : Nat) (fileSize : UInt64) :
    Program (Transfer ε) (Except (TransferError ε) Part) :=
  Program.put (S := Transfer ε) (.sendPart bytes offset fileSize)

def commit (digest : Sha1.Digest) (parts : List Part) :
    Program (Transfer ε) (Except (TransferError ε) RemoteFile) :=
  Program.put (S := Transfer ε) (.commit digest parts)

def discard : Program (Transfer ε) (Except (TransferError ε) Bool) :=
  Program.put (S := Transfer ε) .discard

def report (progress : Progress) : Program (Transfer ε) Unit :=
  Program.put (S := Transfer ε) (.report progress)

def pause (span : Span) : Program (Transfer ε) Unit :=
  Program.put (S := Transfer ε) (.pause span)

end Transfer

end ResumableUpload
