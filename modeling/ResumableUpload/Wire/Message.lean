import ResumableUpload.Wire.File
import ResumableUpload.Wire.Part

/-!
# Request and error bodies
-/

namespace ResumableUpload

/-- Opens a session for a new file in a folder, or, without a folder, for a new version. -/
structure CreateRequest where
  folderId : Option String
  fileSize : UInt64
  fileName : Option String
  deriving DecidableEq, Repr

namespace CreateRequest

def fields : Fields (Option String × UInt64 × Option String × Unit) :=
  .cons (.optional "folder_id" .text) <|
  .cons (.required "file_size" .u64) <|
  .cons (.optional "file_name" .text) .nil

def codec : Codec CreateRequest :=
  .record "CreateUploadSessionRequest" fields (fun r => (r.folderId, r.fileSize, r.fileName, ()))
    fun (folderId, fileSize, fileName, ()) => ⟨folderId, fileSize, fileName⟩

end CreateRequest

/-- Turns the parts of a session into a file, with free-form attributes. -/
structure CommitRequest where
  parts : List Part
  attributes : Option Json
  deriving Repr

namespace CommitRequest

def fields : Fields (List Part × Option Json × Unit) :=
  .cons (.required "parts" (.list Part.codec)) <|
  .cons (.optional "attributes" .json) .nil

def codec : Codec CommitRequest :=
  .record "CommitRequest" fields (fun r => (r.parts, r.attributes, ()))
    fun (parts, attributes, ()) => ⟨parts, attributes⟩

end CommitRequest

/-- What a server says about an error. -/
structure ErrorBody where
  kind : String
  status : UInt16
  code : String
  message : String
  requestId : String
  deriving DecidableEq, Repr

namespace ErrorBody

def fields : Fields (String × UInt16 × String × String × String × Unit) :=
  .cons (.defaulted "type" .text "") <|
  .cons (.defaulted "status" .u16 0) <|
  .cons (.textOrEmpty "code") <|
  .cons (.textOrEmpty "message") <|
  .cons (.textOrEmpty "request_id") .nil

def codec : Codec ErrorBody :=
  .record "ApiErrorBody" fields (fun b => (b.kind, b.status, b.code, b.message, b.requestId, ()))
    fun (kind, status, code, message, requestId, ()) => ⟨kind, status, code, message, requestId⟩

end ErrorBody

end ResumableUpload
