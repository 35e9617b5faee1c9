import ResumableUpload.Proofs.Json.Likeness
import ResumableUpload.Wire.ClientConfig
import ResumableUpload.Wire.Message
import ResumableUpload.Wire.Progress
import ResumableUpload.Wire.SessionInfo

/-!
# The shapes of the wire types

Of each wire type, the names and the shapes of its fields. Its reader goes by the value that is
spelled and looks at no more of it than the shapes tell (`understands`), because the readers of its
fields do (`fits`).
-/

namespace ResumableUpload

open Json Codec

/-! ## The leaves -/

theorem Codec.understands_text : Understands Codec.text.read .leaf := understands_ofText _ _ _

theorem Codec.understands_instant : Understands Codec.instant.read .leaf :=
  understands_ofText _ _ _

theorem Codec.understands_u64 : Understands Codec.u64.read .leaf := understands_ofInteger _ _ _

theorem Codec.understands_u16 : Understands Codec.u16.read .leaf := understands_ofInteger _ _ _

theorem Codec.understands_i64 : Understands Codec.i64.read .leaf := understands_ofInteger _ _ _

theorem Status.understands : Understands Status.codec.read .leaf := understands_choice _ Status.name

/-! ## The records -/

namespace Part

def shapes : List (String × Shape) :=
  [("part_id", .leaf), ("offset", .leaf), ("size", .leaf), ("sha1", .leaf)]

theorem fits : fields.Fits shapes where
  names := by decide
  understood := ⟨rfl, understands_text, rfl, understands_u64, rfl, understands_u64, rfl,
    understands_text, trivial⟩

theorem understands : Understands codec.read (.record shapes) := understands_record fits

/-- Each field of a part takes one kind of value. -/
theorem not_hasFree : ¬(Shape.record shapes).HasFree := by
  rintro (_ | _ | _ | ⟨hmem, hfree⟩)
  have hleaf : ∀ f ∈ shapes, f.2 = .leaf := by simp [shapes]
  rw [hleaf _ hmem] at hfree
  cases hfree

end Part

namespace PartReply

def shapes : List (String × Shape) :=
  [("part", .record Part.shapes)]

theorem fits : fields.Fits shapes where
  names := by decide
  understood := ⟨rfl, Part.understands, trivial⟩

theorem understands : Understands codec.read (.record shapes) := understands_record fits

end PartReply

namespace PartsPage

def shapes : List (String × Shape) :=
  [("entries", .list (.record Part.shapes)), ("total_count", .leaf), ("limit", .nullable .leaf),
    ("offset", .nullable .leaf)]

theorem fits : fields.Fits shapes where
  names := by decide
  understood := ⟨rfl, understands_list Part.understands, rfl, understands_u64, rfl,
    understands_nullable understands_i64, rfl, understands_nullable understands_u64, trivial⟩

theorem understands : Understands codec.read (.record shapes) := understands_record fits

end PartsPage

namespace Endpoints

def shapes : List (String × Shape) :=
  [("upload_part", .leaf), ("commit", .leaf), ("abort", .leaf), ("list_parts", .leaf),
    ("status", .leaf), ("log_event", .leaf)]

theorem fits : fields.Fits shapes where
  names := by decide
  understood := ⟨rfl, understands_text, rfl, understands_text, rfl, understands_text, rfl,
    understands_text, rfl, understands_text, rfl, understands_text, trivial⟩

theorem understands : Understands codec.read (.record shapes) := understands_record fits

end Endpoints

namespace SessionInfo

def shapes : List (String × Shape) :=
  [("id", .leaf), ("type", .leaf), ("total_parts", .leaf), ("part_size", .leaf),
    ("num_parts_processed", .leaf), ("session_expires_at", .nullable .leaf),
    ("session_endpoints", .nullable (.record Endpoints.shapes))]

theorem fits : fields.Fits shapes where
  names := by decide
  understood := ⟨rfl, understands_text, rfl, understands_text, rfl, understands_u64, rfl,
    understands_u64, rfl, understands_u64, rfl, understands_nullable understands_instant, rfl,
    understands_nullable Endpoints.understands, trivial⟩

theorem understands : Understands codec.read (.record shapes) := understands_record fits

end SessionInfo

namespace FileVersion

def shapes : List (String × Shape) :=
  [("id", .leaf), ("type", .leaf), ("sha1", .leaf)]

theorem fits : fields.Fits shapes where
  names := by decide
  understood := ⟨rfl, understands_text, rfl, understands_text, rfl, understands_text, trivial⟩

theorem understands : Understands codec.read (.record shapes) := understands_record fits

end FileVersion

namespace Folder

def shapes : List (String × Shape) :=
  [("id", .leaf), ("type", .leaf), ("name", .leaf)]

theorem fits : fields.Fits shapes where
  names := by decide
  understood := ⟨rfl, understands_text, rfl, understands_text, rfl, understands_text, trivial⟩

theorem understands : Understands codec.read (.record shapes) := understands_record fits

end Folder

namespace RemoteFile

def shapes : List (String × Shape) :=
  [("id", .leaf), ("type", .leaf), ("name", .leaf), ("size", .nullable .leaf), ("sha1", .leaf),
    ("etag", .nullable .leaf), ("file_version", .nullable (.record FileVersion.shapes)),
    ("parent", .nullable (.record Folder.shapes))]

theorem fits : fields.Fits shapes where
  names := by decide
  understood := ⟨rfl, understands_text, rfl, understands_text, rfl, understands_text, rfl,
    understands_nullable understands_u64, rfl, understands_text, rfl, understands_nullable
    understands_text, rfl, understands_nullable FileVersion.understands, rfl, understands_nullable
    Folder.understands, trivial⟩

theorem understands : Understands codec.read (.record shapes) := understands_record fits

end RemoteFile

namespace FileList

def shapes : List (String × Shape) :=
  [("total_count", .leaf), ("entries", .list (.record RemoteFile.shapes))]

theorem fits : fields.Fits shapes where
  names := by decide
  understood := ⟨rfl, understands_u64, rfl, understands_list RemoteFile.understands, trivial⟩

theorem understands : Understands codec.read (.record shapes) := understands_record fits

end FileList

namespace Progress

def shapes : List (String × Shape) :=
  [("session_id", .leaf), ("status", .leaf), ("total_bytes", .leaf),
    ("transferred_bytes", .leaf), ("parts_done", .leaf), ("total_parts", .leaf)]

theorem fits : fields.Fits shapes where
  names := by decide
  understood := ⟨rfl, understands_text, rfl, Status.understands, rfl,
    understands_u64, rfl, understands_u64, rfl, understands_u64, rfl, understands_u64, trivial⟩

theorem understands : Understands codec.read (.record shapes) := understands_record fits

end Progress

namespace CreateRequest

def shapes : List (String × Shape) :=
  [("folder_id", .nullable .leaf), ("file_size", .leaf), ("file_name", .nullable .leaf)]

theorem fits : fields.Fits shapes where
  names := by decide
  understood := ⟨rfl, understands_nullable understands_text, rfl, understands_u64, rfl,
    understands_nullable understands_text, trivial⟩

theorem understands : Understands codec.read (.record shapes) := understands_record fits

end CreateRequest

namespace CommitRequest

def shapes : List (String × Shape) :=
  [("parts", .list (.record Part.shapes)), ("attributes", .nullable .free)]

theorem fits : fields.Fits shapes where
  names := by decide
  understood := ⟨rfl, understands_list Part.understands, rfl, understands_nullable
    understands_json, trivial⟩

theorem understands : Understands codec.read (.record shapes) := understands_record fits

end CommitRequest

namespace ErrorBody

def shapes : List (String × Shape) :=
  [("type", .leaf), ("status", .leaf), ("code", .leaf), ("message", .leaf), ("request_id", .leaf)]

theorem fits : fields.Fits shapes where
  names := by decide
  understood := ⟨rfl, understands_text, rfl, understands_u16, rfl, understands_text, rfl,
    understands_text, rfl, understands_text, trivial⟩

theorem understands : Understands codec.read (.record shapes) := understands_record fits

end ErrorBody

namespace ClientConfig

def shapes : List (String × Shape) :=
  [("api_url", .leaf), ("upload_url", .leaf), ("access_token", .leaf), ("timeout_secs", .leaf),
    ("user_agent", .leaf)]

theorem fits : fields.Fits shapes where
  names := by decide
  understood := ⟨rfl, understands_text, rfl, understands_text, rfl, understands_text, rfl,
    understands_u64, rfl, understands_text, trivial⟩

theorem understands : Understands codec.read (.record shapes) := understands_record fits

end ClientConfig

end ResumableUpload
