import ResumableUpload.Json.Record

/-!
# Upload sessions

What the server says about an upload session when it opens one or is asked for one.
-/

namespace ResumableUpload

/-- The addresses that the server advertises for a session; an empty one is not advertised. -/
structure Endpoints where
  uploadPart : String
  commit : String
  abort : String
  listParts : String
  status : String
  logEvent : String
  deriving DecidableEq, Repr, Inhabited

namespace Endpoints

def fields : Fields (String × String × String × String × String × String × Unit) :=
  .cons (.textOrEmpty "upload_part") <|
  .cons (.textOrEmpty "commit") <|
  .cons (.textOrEmpty "abort") <|
  .cons (.textOrEmpty "list_parts") <|
  .cons (.textOrEmpty "status") <|
  .cons (.textOrEmpty "log_event") .nil

def codec : Codec Endpoints :=
  .record "SessionEndpoints" fields
    (fun e => (e.uploadPart, e.commit, e.abort, e.listParts, e.status, e.logEvent, ()))
    fun (uploadPart, commit, abort, listParts, status, logEvent, ()) =>
      ⟨uploadPart, commit, abort, listParts, status, logEvent⟩

end Endpoints

/-- The state of an upload session on the server. -/
structure SessionInfo where
  id : String
  kind : String
  totalParts : UInt64
  partSize : UInt64
  partsProcessed : UInt64
  expiresAt : Option Instant
  endpoints : Option Endpoints
  deriving DecidableEq, Repr

namespace SessionInfo

def fields : Fields (String × String × UInt64 × UInt64 × UInt64 × Option Instant ×
    Option Endpoints × Unit) :=
  .cons (.required "id" .text) <|
  .cons (.defaulted "type" .text "upload_session") <|
  .cons (.required "total_parts" .u64) <|
  .cons (.required "part_size" .u64) <|
  .cons (.defaulted "num_parts_processed" .u64 0) <|
  .cons (.optional "session_expires_at" .instant) <|
  .cons (.optional "session_endpoints" Endpoints.codec) .nil

def codec : Codec SessionInfo :=
  .record "UploadSessionInfo" fields
    (fun s => (s.id, s.kind, s.totalParts, s.partSize, s.partsProcessed, s.expiresAt, s.endpoints,
      ()))
    fun (id, kind, totalParts, partSize, partsProcessed, expiresAt, endpoints, ()) =>
      ⟨id, kind, totalParts, partSize, partsProcessed, expiresAt, endpoints⟩

end SessionInfo

end ResumableUpload
