import Std.Data.ExtTreeMap
import ResumableUpload.Bytes.Sha1
import ResumableUpload.Client.Error
import ResumableUpload.Transfer.Session

/-!
# A session for rehearsals

A session that keeps its parts in memory and fails when it is told to: calls for a part at an offset
before or after the part is stored, lists, commits and discards. It keeps a journal of the calls
that it was asked to answer, also of those that fail, and of the progress that was reported.
-/

namespace ResumableUpload.Rehearsal

/-- A failure that was asked for, or an error of a client. -/
inductive StagedFault
  | injected (name : String)
  | client (cause : ClientError)
  deriving DecidableEq, Repr

namespace StagedFault

def message : StagedFault → String
  | .injected name => "injected failure: " ++ name
  | .client cause => cause.message

def retryAfter : StagedFault → Option Span
  | .injected _ => none
  | .client cause => cause.retryAfter

instance : Fault StagedFault := ⟨message, retryAfter⟩

end StagedFault

/-- When a transfer fails: before the part is stored, or when it is. -/
inductive FaultPoint
  | before
  | after
  deriving DecidableEq, Repr

/-- Transfers at this offset fail, so many times. -/
structure TransferFault where
  offset : Nat
  point : FaultPoint
  times : Nat
  deriving DecidableEq, Repr

/-- A session in memory. The journals have their last entry first. -/
structure StagedSession where
  session : Session
  stored : Std.ExtTreeMap Nat Part
  listing : Option (List Part)
  reversed : Bool
  transferFaults : List TransferFault
  replies : List (Nat × Part)
  commitFaults : List StagedFault
  listFaults : Nat
  discardFaults : Nat
  discardAnswer : Bool
  calls : List TransferCall
  reports : List Progress

namespace StagedSession

/-- An answer of the session, and the session after it. -/
abbrev Reply (α : Type) := Except (TransferError StagedFault) α × StagedSession

/-- A session that holds some parts and does not fail. -/
def ofParts (session : Session) (parts : List Part) : StagedSession where
  session := session
  stored := parts.foldl (fun stored p => stored.insert p.offset.toNat p) ∅
  listing := none
  reversed := false
  transferFaults := []
  replies := []
  commitFaults := []
  listFaults := 0
  discardFaults := 0
  discardAnswer := true
  calls := []
  reports := []

/-- Stores a part under its own offset. -/
def store (s : StagedSession) (part : Part) : StagedSession :=
  { s with stored := s.stored.insert part.offset.toNat part }

/-- A failure by name. -/
def fail {α : Type} (name : String) : Except (TransferError StagedFault) α :=
  .error (.session (.injected name))

/-- What the session lists. -/
def listed (s : StagedSession) : List Part :=
  let parts := s.listing.getD s.stored.values
  if s.reversed then parts.reverse else parts

def listParts (s : StagedSession) : Reply (List Part) :=
  match s.listFaults with
  | n + 1 => (fail "list", { s with listFaults := n })
  | 0 => (.ok s.listed, s)

/-- The faults after one at this offset has been used, and when it makes the transfer fail. -/
def useFault (offset : Nat) : List TransferFault → Option FaultPoint × List TransferFault
  | [] => (none, [])
  | f :: rest =>
    if f.offset = offset ∧ f.times ≠ 0 then
      (some f.point, { f with times := f.times - 1 } :: rest)
    else
      let (point, rest) := useFault offset rest
      (point, f :: rest)

/-- The record of a part. -/
def recordOf (s : StagedSession) (bytes : Bytes) (offset : Nat) : Part :=
  (s.replies.lookup offset).getD
    ⟨"part-" ++ toString offset, offset.toUInt64, bytes.length.toUInt64, (Sha1.hash bytes).hex⟩

def sendPart (s : StagedSession) (bytes : Bytes) (offset : Nat) : Reply Part :=
  let (point, faults) := useFault offset s.transferFaults
  let s := { s with transferFaults := faults }
  let record := s.recordOf bytes offset
  match point with
  | some .before => (fail "connect", s)
  | some .after => (fail "response lost", s.store record)
  | none => (.ok record, s.store record)

/-- The file that a commit makes. -/
def fileOf (digest : Sha1.Digest) (parts : List Part) : RemoteFile where
  id := "file-1"
  kind := "file"
  name := "data.bin"
  size := some (Part.totalSize parts).toUInt64
  sha1 := digest.hex
  etag := some "0"
  version := none
  parent := none

def commit (s : StagedSession) (digest : Sha1.Digest) (parts : List Part) : Reply RemoteFile :=
  match s.commitFaults with
  | fault :: rest => (.error (.session fault), { s with commitFaults := rest })
  | [] => (.ok (fileOf digest parts), s)

def discard (s : StagedSession) : Reply Bool :=
  match s.discardFaults with
  | n + 1 => (fail "abort", { s with discardFaults := n })
  | 0 => (.ok s.discardAnswer, { s with stored := ∅ })

/-- Notes a call. -/
def note (s : StagedSession) (call : TransferCall) : StagedSession :=
  if call.isOfSession then { s with calls := call :: s.calls } else s

/-- Answers a call. -/
def answer (call : TransferCall) (s : StagedSession) : call.Answer StagedFault × StagedSession :=
  let s := s.note call
  match call with
  | .listParts => s.listParts
  | .sendPart bytes offset _ => s.sendPart bytes offset
  | .commit digest parts => s.commit digest parts
  | .discard => s.discard
  | .report progress => ((), { s with reports := progress :: s.reports })
  | .pause _ => ((), s)

/-- Performs an upload's program with this session. -/
def perform {α : Type} (s : StagedSession) (p : Program (Transfer StagedFault) α) :
    α × StagedSession :=
  (p.run (m := StateM StagedSession) answer).run s

end StagedSession

end ResumableUpload.Rehearsal
