import ResumableUpload.Proofs.Json.Lossless
import ResumableUpload.Proofs.Time.Rfc3339
import ResumableUpload.Proofs.Wire.Shapes

/-!
# What the wire types write reads back

Each wire type without free-form values keeps all its values, because each field does: a text that
is left out is empty, a value that is left out is none, and integers are written in the range in
which they are read. Of an instant this takes that the calendar has it.

The depth at which a type keeps its values is the number of brackets that it opens. All are far
below the number that a text may open (`Codec.levels`).
-/

namespace ResumableUpload

open Codec ResumableUpload.Field

/-! ## The leaves -/

namespace Codec

theorem keeps_u64 (x : UInt64) (depth : Nat) : u64.Keeps depth x := by
  have hx : x.toNat < UInt64.size := x.toNat_lt_size
  have hsize : UInt64.size = 18446744073709551616 := rfl
  refine keeps_ofInteger _ (by omega) (by omega) ?_ depth
  rw [if_pos (by omega), Int.toNat_natCast]
  exact congrArg some UInt64.ofNat_toNat

theorem keeps_u16 (x : UInt16) (depth : Nat) : u16.Keeps depth x := by
  have hx : x.toNat < UInt16.size := x.toNat_lt_size
  have hsize : UInt16.size = 65536 := rfl
  refine keeps_ofInteger _ (by omega) (by omega) ?_ depth
  rw [if_pos (by omega), Int.toNat_natCast]
  exact congrArg some UInt16.ofNat_toNat

theorem keeps_i64 (x : Int64) (depth : Nat) : i64.Keeps depth x := by
  have hlow : Int64.minValue.toInt ≤ x.toInt := x.minValue_le_toInt
  have hhigh : x.toInt ≤ Int64.maxValue.toInt := x.toInt_le
  have hmin : Int64.minValue.toInt = -9223372036854775808 := rfl
  have hmax : Int64.maxValue.toInt = 9223372036854775807 := rfl
  refine keeps_ofInteger _ (by omega) (by omega) ?_ depth
  rw [if_pos ⟨hlow, hhigh⟩, Int64.ofInt_toInt]

theorem keeps_instant {t : Instant} (hvalid : t.isValid) (depth : Nat) : instant.Keeps depth t := by
  refine keeps_ofText _ ?_ depth
  rw [Rfc3339.read?_write hvalid]

end Codec

theorem Status.keeps (s : Status) (depth : Nat) : codec.Keeps depth s :=
  keeps_choice (by cases s <;> rfl) depth

/-! ## The records -/

theorem Part.keeps (p : Part) : codec.Keeps 1 p :=
  keeps_record fits
    ⟨keeps_required _ (keeps_text _ _), keeps_required _ (keeps_u64 _ _),
      keeps_required _ (keeps_u64 _ _), keeps_textOrEmpty _ _ _, trivial⟩ rfl

theorem PartReply.keeps (r : PartReply) : codec.Keeps 2 r :=
  keeps_record fits ⟨keeps_required _ r.part.keeps, trivial⟩ rfl

theorem PartsPage.keeps (p : PartsPage) : codec.Keeps 3 p :=
  keeps_record fits
    ⟨keeps_required _ (keeps_list Part.understands.reads fun part _ => part.keeps),
      keeps_required _ (keeps_u64 _ _),
      keeps_optional _ understands_i64.reads fun limit _ => keeps_i64 limit _,
      keeps_optional _ understands_u64.reads fun offset _ => keeps_u64 offset _, trivial⟩ rfl

theorem Endpoints.keeps (e : Endpoints) : codec.Keeps 1 e :=
  keeps_record fits
    ⟨keeps_textOrEmpty _ _ _, keeps_textOrEmpty _ _ _, keeps_textOrEmpty _ _ _,
      keeps_textOrEmpty _ _ _, keeps_textOrEmpty _ _ _, keeps_textOrEmpty _ _ _, trivial⟩ rfl

theorem SessionInfo.keeps {s : SessionInfo} (hvalid : ∀ t ∈ s.expiresAt, t.isValid) :
    codec.Keeps 2 s :=
  keeps_record fits
    ⟨keeps_required _ (keeps_text _ _), keeps_defaulted _ _ (keeps_text _ _),
      keeps_required _ (keeps_u64 _ _), keeps_required _ (keeps_u64 _ _),
      keeps_defaulted _ _ (keeps_u64 _ _),
      keeps_optional _ understands_instant.reads fun t ht => keeps_instant (hvalid t ht) _,
      keeps_optional _ Endpoints.understands.reads fun e _ => e.keeps, trivial⟩ rfl

theorem FileVersion.keeps (v : FileVersion) : codec.Keeps 1 v :=
  keeps_record fits
    ⟨keeps_required _ (keeps_text _ _), keeps_defaulted _ _ (keeps_text _ _),
      keeps_textOrEmpty _ _ _, trivial⟩ rfl

theorem Folder.keeps (f : Folder) : codec.Keeps 1 f :=
  keeps_record fits
    ⟨keeps_required _ (keeps_text _ _), keeps_defaulted _ _ (keeps_text _ _),
      keeps_textOrEmpty _ _ _, trivial⟩ rfl

theorem RemoteFile.keeps (f : RemoteFile) : codec.Keeps 2 f :=
  keeps_record fits
    ⟨keeps_required _ (keeps_text _ _), keeps_defaulted _ _ (keeps_text _ _),
      keeps_textOrEmpty _ _ _, keeps_optional _ understands_u64.reads fun n _ => keeps_u64 n _,
      keeps_textOrEmpty _ _ _, keeps_optional _ understands_text.reads fun t _ => keeps_text t _,
      keeps_optional _ FileVersion.understands.reads fun v _ => v.keeps,
      keeps_optional _ Folder.understands.reads fun p _ => p.keeps, trivial⟩ rfl

theorem FileList.keeps (l : FileList) : codec.Keeps 4 l :=
  keeps_record fits
    ⟨keeps_defaulted _ _ (keeps_u64 _ _),
      keeps_required _ (keeps_list RemoteFile.understands.reads fun f _ => f.keeps), trivial⟩ rfl

theorem Progress.keeps (p : Progress) : codec.Keeps 1 p :=
  keeps_record fits
    ⟨keeps_required _ (keeps_text _ _), keeps_required _ (p.status.keeps _),
      keeps_required _ (keeps_u64 _ _), keeps_required _ (keeps_u64 _ _),
      keeps_required _ (keeps_u64 _ _), keeps_required _ (keeps_u64 _ _), trivial⟩ rfl

theorem CreateRequest.keeps (r : CreateRequest) : codec.Keeps 1 r :=
  keeps_record fits
    ⟨keeps_optional _ understands_text.reads fun t _ => keeps_text t _,
      keeps_required _ (keeps_u64 _ _),
      keeps_optional _ understands_text.reads fun t _ => keeps_text t _, trivial⟩ rfl

theorem ErrorBody.keeps (b : ErrorBody) : codec.Keeps 1 b :=
  keeps_record fits
    ⟨keeps_defaulted _ _ (keeps_text _ _), keeps_defaulted _ _ (keeps_u16 _ _),
      keeps_textOrEmpty _ _ _, keeps_textOrEmpty _ _ _, keeps_textOrEmpty _ _ _, trivial⟩ rfl

theorem ClientConfig.keeps (c : ClientConfig) : codec.Keeps 1 c :=
  keeps_record fits
    ⟨keeps_defaulted _ _ (keeps_text _ _), keeps_defaulted _ _ (keeps_text _ _),
      keeps_defaulted _ _ (keeps_text _ _), keeps_defaulted _ _ (keeps_u64 _ _),
      keeps_defaulted _ _ (keeps_text _ _), trivial⟩ rfl

/-! ## All of them -/

/-- Every wire type without free-form values reads its values back from what it writes. -/
theorem Wire.reads_back_what_is_written :
    Part.codec.Lossless ∧ Endpoints.codec.Lossless ∧
    (∀ s : SessionInfo, (∀ t ∈ s.expiresAt, t.isValid) →
      SessionInfo.codec.decode (SessionInfo.codec.encode s) = .ok s) ∧
    FileVersion.codec.Lossless ∧ Folder.codec.Lossless ∧ RemoteFile.codec.Lossless ∧
    Status.codec.Lossless ∧ Progress.codec.Lossless ∧ CreateRequest.codec.Lossless ∧
    PartReply.codec.Lossless ∧ PartsPage.codec.Lossless ∧ FileList.codec.Lossless ∧
    ErrorBody.codec.Lossless ∧ ClientConfig.codec.Lossless := by
  refine ⟨lossless_of_keeps Part.understands.reads (by decide) Part.keeps,
    lossless_of_keeps Endpoints.understands.reads (by decide) Endpoints.keeps,
    fun s hvalid => ?session,
    lossless_of_keeps FileVersion.understands.reads (by decide) FileVersion.keeps,
    lossless_of_keeps Folder.understands.reads (by decide) Folder.keeps,
    lossless_of_keeps RemoteFile.understands.reads (by decide) RemoteFile.keeps,
    lossless_of_keeps Status.understands.reads (Nat.zero_le levels) (Status.keeps · 0),
    lossless_of_keeps Progress.understands.reads (by decide) Progress.keeps,
    lossless_of_keeps CreateRequest.understands.reads (by decide) CreateRequest.keeps,
    lossless_of_keeps PartReply.understands.reads (by decide) PartReply.keeps,
    lossless_of_keeps PartsPage.understands.reads (by decide) PartsPage.keeps,
    lossless_of_keeps FileList.understands.reads (by decide) FileList.keeps,
    lossless_of_keeps ErrorBody.understands.reads (by decide) ErrorBody.keeps,
    lossless_of_keeps ClientConfig.understands.reads (by decide) ClientConfig.keeps⟩
  exact ((SessionInfo.keeps hvalid).mono (by decide)).decode_encode SessionInfo.understands.reads

/-- A session with an instant and with a quote, a backslash and a control character in its name. -/
def SessionInfo.quoted : SessionInfo where
  id := "a\"\\\u0007"
  kind := ""
  totalParts := 3
  partSize := 8388608
  partsProcessed := 0
  expiresAt := some ⟨⟨2024, 2, 29⟩, 23, 59, 59, 120000000⟩
  endpoints := some ⟨"", "", "", "", "", "https://upload.box.com/log"⟩

theorem SessionInfo.quoted_reads_back : (∀ t ∈ quoted.expiresAt, t.isValid) ∧
    codec.decode (codec.encode quoted) = .ok quoted := by
  have hvalid : ∀ t ∈ quoted.expiresAt, t.isValid := by
    rintro _ ⟨⟩
    decide
  exact ⟨hvalid, Wire.reads_back_what_is_written.2.2.1 quoted hvalid⟩

end ResumableUpload
