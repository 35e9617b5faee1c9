import ResumableUpload.Json.Record

/-!
# Files

The file that a committed upload becomes.
-/

namespace ResumableUpload

/-- One version of a file. -/
structure FileVersion where
  id : String
  kind : String
  sha1 : String
  deriving DecidableEq, Repr

namespace FileVersion

def fields : Fields (String × String × String × Unit) :=
  .cons (.required "id" .text) <|
  .cons (.defaulted "type" .text "file_version") <|
  .cons (.textOrEmpty "sha1") .nil

def codec : Codec FileVersion :=
  .record "FileVersion" fields (fun v => (v.id, v.kind, v.sha1, ()))
    fun (id, kind, sha1, ()) => ⟨id, kind, sha1⟩

end FileVersion

/-- A folder by name. -/
structure Folder where
  id : String
  kind : String
  name : String
  deriving DecidableEq, Repr

namespace Folder

def fields : Fields (String × String × String × Unit) :=
  .cons (.required "id" .text) <|
  .cons (.defaulted "type" .text "folder") <|
  .cons (.textOrEmpty "name") .nil

def codec : Codec Folder :=
  .record "FolderMini" fields (fun f => (f.id, f.kind, f.name, ()))
    fun (id, kind, name, ()) => ⟨id, kind, name⟩

end Folder

/-- A file on the server. -/
structure RemoteFile where
  id : String
  kind : String
  name : String
  size : Option UInt64
  sha1 : String
  etag : Option String
  version : Option FileVersion
  parent : Option Folder
  deriving DecidableEq, Repr

namespace RemoteFile

def fields : Fields (String × String × String × Option UInt64 × String × Option String ×
    Option FileVersion × Option Folder × Unit) :=
  .cons (.required "id" .text) <|
  .cons (.defaulted "type" .text "file") <|
  .cons (.textOrEmpty "name") <|
  .cons (.optional "size" .u64) <|
  .cons (.textOrEmpty "sha1") <|
  .cons (.optional "etag" .text) <|
  .cons (.optional "file_version" FileVersion.codec) <|
  .cons (.optional "parent" Folder.codec) .nil

def codec : Codec RemoteFile :=
  .record "FileObject" fields
    (fun f => (f.id, f.kind, f.name, f.size, f.sha1, f.etag, f.version, f.parent, ()))
    fun (id, kind, name, size, sha1, etag, version, parent, ()) =>
      ⟨id, kind, name, size, sha1, etag, version, parent⟩

end RemoteFile

/-- The answer to a commit: the files that it made. -/
structure FileList where
  totalCount : UInt64
  entries : List RemoteFile
  deriving DecidableEq, Repr

namespace FileList

def fields : Fields (UInt64 × List RemoteFile × Unit) :=
  .cons (.defaulted "total_count" .u64 0) <|
  .cons (.required "entries" (.list RemoteFile.codec)) .nil

def codec : Codec FileList :=
  .record "FileCollection" fields (fun l => (l.totalCount, l.entries, ()))
    fun (totalCount, entries, ()) => ⟨totalCount, entries⟩

end FileList

end ResumableUpload
