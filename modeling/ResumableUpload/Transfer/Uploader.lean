import Std.Data.ExtTreeMap
import ResumableUpload.Transfer.Session
import ResumableUpload.Transfer.Reconcile
import ResumableUpload.Transfer.Slot
import ResumableUpload.Transfer.Source

/-!
# The state of an upload

An upload walks the parts of its file from front to back and accounts for each with one record of
the server. A part's bytes are read once, hashed once, and then either sent or, if the server's
record is known already, not sent. The state says how far that has gone:

* `committed`, the records so far, in the order of the parts;
* `known`, every record that the server is known to hold, by offset;
* `slot`, the part whose transfer has failed, with its bytes;
* `digest`, of the first `digestedThrough` bytes of the content.

`next` decides how the next part can be accounted for. It only looks at the state and reads the
content; the calls of the session are made in `Transfer.Attempt`.
-/

namespace ResumableUpload

/-- The records of a server by offset. -/
abbrev PartIndex := Std.ExtTreeMap Nat Part

namespace PartIndex

/-- The index with one more record; it replaces a record of the same offset. -/
def note (index : PartIndex) (part : Part) : PartIndex := index.insert part.offset.toNat part

/-- The index of a list; of records with one offset the last counts. -/
def ofListing (listing : List Part) : PartIndex := listing.foldl note ∅

end PartIndex

/-- The state of an upload. The content is there until the upload is given up. -/
structure Uploader where
  content : Option Source
  fileSize : UInt64
  committed : List Part
  known : PartIndex
  slot : Slot
  digest : Sha1.Rolling
  digestedThrough : Nat
  aborted : Bool

namespace Uploader

variable {ε : Type}

/-- An upload of a stream that has not begun. -/
def ofReader (reader : Reader) (fileSize : UInt64) : Uploader where
  content := some (.ofReader reader)
  fileSize := fileSize
  committed := []
  known := ∅
  slot := .idle
  digest := .empty
  digestedThrough := 0
  aborted := false

/-- The bytes that the committed records stand for. -/
def transferred (u : Uploader) : Nat := Part.totalSize u.committed

/-- How far the upload is. -/
def progress (u : Uploader) (session : Session) (status : Status) : Progress where
  sessionId := session.id
  status := status
  totalBytes := u.fileSize
  transferredBytes := u.transferred.toUInt64
  partsDone := u.committed.length.toUInt64
  totalParts := session.totalParts

/-- Counts a record as the next part. -/
def account (u : Uploader) (part : Part) : Uploader :=
  { u with known := u.known.note part, committed := u.committed ++ [part] }

/-- Hashes a part if its bytes are the next ones. -/
def hash (u : Uploader) (part : InFlight) : Uploader :=
  if part.offset = u.digestedThrough then
    { u with digest := u.digest.feed part.chunk, digestedThrough := part.stop }
  else u

/-- What accounts for the next part: a record of the server, or bytes that are at hand. -/
inductive Next
  | recorded (part : Part)
  | atHand (part : InFlight)

/-- The record of a part whose bytes have been read and hashed before. -/
def remembered (u : Uploader) (offset : Nat) : Except (TransferError ε) Next :=
  match u.known[offset]? with
  | some part => .ok (.recorded part)
  | none => .error (.partUnavailable offset)

/-- Reads the bytes of a part from the content. -/
def readPart (u : Uploader) (offset partSize : Nat) : Except (TransferError ε) Next × Uploader :=
  match u.content with
  | none => (.error .aborted, u)
  | some source =>
    if source.position = offset then
      let length := Geometry.partLength u.fileSize.toNat partSize offset
      match source.nextChunk length with
      | (.error cause, source) => (.error (.io cause), { u with content := some source })
      | (.ok chunk, source) =>
        if chunk.length = length then
          (.ok (.atHand ⟨offset, chunk⟩), { u with content := some source })
        else (.error (.truncatedStream offset), { u with content := some source })
    else (.error (.partUnavailable offset), u)

/-- Finds what accounts for the next part. A part in the slot is taken out if it is the next one; if
it is behind a gap, it stays. -/
def next (u : Uploader) (partSize : Nat) : Except (TransferError ε) Next × Uploader :=
  let offset := u.committed.length * partSize
  match u.slot with
  | .holding part =>
    if part.offset = offset then (.ok (.atHand part), { u with slot := .idle })
    else (u.remembered offset, u)
  | .idle =>
    if offset < u.digestedThrough then (u.remembered offset, u) else u.readPart offset partSize

/-- Takes over what the server lists. -/
def adopt (u : Uploader) (listing : List Part) : Uploader :=
  let found := reconcile u.slot.offset? listing
  { u with
    committed := found.committed
    slot := if found.landed then .idle else u.slot
    known := .ofListing listing }

/-- Gives the upload up. -/
def giveUp (u : Uploader) : Uploader :=
  { u with content := none, committed := [], slot := .idle, aborted := true }

end Uploader

end ResumableUpload
