import ResumableUpload.Json.Record

/-!
# Parts

A part is the server's record of one byte range of a file under upload.
-/

namespace ResumableUpload

/-- A part that the server holds: `size` bytes from `offset` on. -/
structure Part where
  id : String
  offset : UInt64
  size : UInt64
  sha1 : String
  deriving DecidableEq, Repr, Inhabited

namespace Part

/-- The offset of the byte after the part's last. -/
def stop (p : Part) : Nat := p.offset.toNat + p.size.toNat

/-- The bytes that parts stand for. -/
def totalSize : List Part → Nat
  | [] => 0
  | p :: rest => p.size.toNat + totalSize rest

def fields : Fields (String × UInt64 × UInt64 × String × Unit) :=
  .cons (.required "part_id" .text) <|
  .cons (.required "offset" .u64) <|
  .cons (.required "size" .u64) <|
  .cons (.textOrEmpty "sha1") .nil

def codec : Codec Part :=
  .record "UploadPart" fields (fun p => (p.id, p.offset, p.size, p.sha1, ()))
    fun (id, offset, size, sha1, ()) => ⟨id, offset, size, sha1⟩

end Part

/-- The answer to an uploaded part. -/
structure PartReply where
  part : Part
  deriving DecidableEq, Repr

namespace PartReply

def fields : Fields (Part × Unit) := .cons (.required "part" Part.codec) .nil

def codec : Codec PartReply :=
  .record "UploadPartResponse" fields (fun r => (r.part, ())) fun (part, ()) => ⟨part⟩

end PartReply

/-- One page of the list of parts. The server may report the limit and the offset that it used. -/
structure PartsPage where
  entries : List Part
  totalCount : UInt64
  limit : Option Int64
  offset : Option UInt64
  deriving DecidableEq, Repr

namespace PartsPage

def fields : Fields (List Part × UInt64 × Option Int64 × Option UInt64 × Unit) :=
  .cons (.required "entries" (.list Part.codec)) <|
  .cons (.required "total_count" .u64) <|
  .cons (.optional "limit" .i64) <|
  .cons (.optional "offset" .u64) .nil

def codec : Codec PartsPage :=
  .record "PartsPage" fields (fun p => (p.entries, p.totalCount, p.limit, p.offset, ()))
    fun (entries, totalCount, limit, offset, ()) => ⟨entries, totalCount, limit, offset⟩

end PartsPage

end ResumableUpload
