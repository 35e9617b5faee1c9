import ResumableUpload.Proofs.Json.Objects
import ResumableUpload.Proofs.Wire.Shapes

/-!
# The wire types read objects exactly

Of every wire type that is a record: which objects it accepts, what its fields are then, which of
its fields must come, and which may be null.
-/

namespace ResumableUpload

open Codec Json

/-- Of every wire type that is a record, how it reads objects: which of them it accepts, by the
texts of their members alone, and what its fields are then, wherever the object stands; which of its
fields must come, and which may be null. Two texts of values are read alike if they only differ in
blanks, escapes, the order of members, and members that no field asks for, however deep within. The
attributes of a commit take any value, and raw values among them are left out. -/
theorem Wire.reads_objects_exactly :
    Part.codec.ReadsObjects Part.fields (fun p => (p.id, p.offset, p.size, p.sha1, ()))
      ["part_id", "offset", "size"] [] Part.shapes ∧
    PartReply.codec.ReadsObjects PartReply.fields (fun r => (r.part, ()))
      ["part"] [] PartReply.shapes ∧
    PartsPage.codec.ReadsObjects PartsPage.fields
      (fun p => (p.entries, p.totalCount, p.limit, p.offset, ()))
      ["entries", "total_count"] ["limit", "offset"] PartsPage.shapes ∧
    Endpoints.codec.ReadsObjects Endpoints.fields
      (fun e => (e.uploadPart, e.commit, e.abort, e.listParts, e.status, e.logEvent, ()))
      [] [] Endpoints.shapes ∧
    SessionInfo.codec.ReadsObjects SessionInfo.fields
      (fun s => (s.id, s.kind, s.totalParts, s.partSize, s.partsProcessed, s.expiresAt,
        s.endpoints, ()))
      ["id", "total_parts", "part_size"] ["session_expires_at", "session_endpoints"]
      SessionInfo.shapes ∧
    FileVersion.codec.ReadsObjects FileVersion.fields (fun v => (v.id, v.kind, v.sha1, ()))
      ["id"] [] FileVersion.shapes ∧
    Folder.codec.ReadsObjects Folder.fields (fun f => (f.id, f.kind, f.name, ()))
      ["id"] [] Folder.shapes ∧
    RemoteFile.codec.ReadsObjects RemoteFile.fields
      (fun f => (f.id, f.kind, f.name, f.size, f.sha1, f.etag, f.version, f.parent, ()))
      ["id"] ["size", "etag", "file_version", "parent"] RemoteFile.shapes ∧
    FileList.codec.ReadsObjects FileList.fields (fun l => (l.totalCount, l.entries, ()))
      ["entries"] [] FileList.shapes ∧
    Progress.codec.ReadsObjects Progress.fields
      (fun p => (p.sessionId, p.status, p.totalBytes, p.transferredBytes, p.partsDone,
        p.totalParts, ()))
      ["session_id", "status", "total_bytes", "transferred_bytes", "parts_done", "total_parts"] []
      Progress.shapes ∧
    CreateRequest.codec.ReadsObjects CreateRequest.fields
      (fun r => (r.folderId, r.fileSize, r.fileName, ()))
      ["file_size"] ["folder_id", "file_name"] CreateRequest.shapes ∧
    CommitRequest.codec.ReadsObjects CommitRequest.fields (fun r => (r.parts, r.attributes, ()))
      ["parts"] ["attributes"] CommitRequest.shapes ∧
    ErrorBody.codec.ReadsObjects ErrorBody.fields
      (fun b => (b.kind, b.status, b.code, b.message, b.requestId, ()))
      [] [] ErrorBody.shapes ∧
    ClientConfig.codec.ReadsObjects ClientConfig.fields
      (fun c => (c.apiUrl, c.uploadUrl, c.accessToken, c.timeoutSeconds, c.userAgent, ()))
      [] [] ClientConfig.shapes := by
  refine ⟨reads_objects Part.fits (fun _ => rfl) (fun _ => rfl) rfl (fun _ => rfl),
    reads_objects PartReply.fits (fun _ => rfl) (fun _ => rfl) rfl (fun _ => rfl),
    reads_objects PartsPage.fits (fun _ => rfl) (fun _ => rfl) rfl (fun _ => rfl),
    reads_objects Endpoints.fits (fun _ => rfl) (fun _ => rfl) rfl (fun _ => rfl),
    reads_objects SessionInfo.fits (fun _ => rfl) (fun _ => rfl) rfl (fun _ => rfl),
    reads_objects FileVersion.fits (fun _ => rfl) (fun _ => rfl) rfl (fun _ => rfl),
    reads_objects Folder.fits (fun _ => rfl) (fun _ => rfl) rfl (fun _ => rfl),
    reads_objects RemoteFile.fits (fun _ => rfl) (fun _ => rfl) rfl (fun _ => rfl),
    reads_objects FileList.fits (fun _ => rfl) (fun _ => rfl) rfl (fun _ => rfl),
    reads_objects Progress.fits (fun _ => rfl) (fun _ => rfl) rfl (fun _ => rfl),
    reads_objects CreateRequest.fits (fun _ => rfl) (fun _ => rfl) rfl (fun _ => rfl),
    reads_objects CommitRequest.fits (fun _ => rfl) (fun _ => rfl) rfl (fun _ => rfl),
    reads_objects ErrorBody.fits (fun _ => rfl) (fun _ => rfl) rfl (fun _ => rfl),
    reads_objects ClientConfig.fits (fun _ => rfl) (fun _ => rfl) rfl (fun _ => rfl)⟩

/-- The texts of a part and of a commit, with the members in another order, and in the first a
member that is unknown. The attributes are an object that is no raw value. -/
theorem Wire.objects_in_another_order :
    (IsObject [("size", ['4']), ("etag", ['n', 'u', 'l', 'l']), ("part_id", ['"', 'p', '"']),
        ("offset", ['0'])] " \x7b\"size\":4,\"etag\":null,\"part_id\":\"p\",\"offset\":0\x7d" ∧
      Part.codec.decode " \x7b\"size\":4,\"etag\":null,\"part_id\":\"p\",\"offset\":0\x7d" =
        .ok ⟨"p", 0, 4, ""⟩) ∧
    ((Shape.record CommitRequest.shapes).LacksRaw
        "\x7b\"attributes\":\x7b\"b\":true,\"a\":null\x7d,\"parts\":[]\x7d" ∧
      CommitRequest.codec.decode
          "\x7b\"attributes\":\x7b\"b\":true,\"a\":null\x7d,\"parts\":[]\x7d" =
        .ok ⟨[], some (.object [("a", .null), ("b", .boolean true)])⟩) := by
  constructor
  · have hwhole : WholeText ['4'] := .digits rfl (by decide) (List.forall_mem_nil _)
    have hfour : ∃ tree, Spells tree ['4'] := ⟨_, .positive ⟨_, .parts hwhole .none .none⟩⟩
    have hzero : ∃ tree, Spells tree ['0'] := ⟨_, .positive ⟨_, .parts .zero .none .none⟩⟩
    have hletter : SpellsChar 'p' ['p'] := .plain (by decide) (by decide) (by decide)
    have hname : Spells (.string "p") ['"', 'p', '"'] := .string (.char hletter .close)
    have hread : Codec.text.read (levels - 1) ['"', 'p', '"'] = .ok ("p", []) :=
      eq_ok_of_toOption ((reads_ofText "a string" .ok id).toOption _ hname)
    have hobject := IsObject.blanks (show Blank [' '] from List.forall_mem_singleton.2 rfl)
      (objectText_cons lead_nil "size" ⟨rfl, hfour⟩ <|
        objectText_cons lead_comma "etag" ⟨rfl, _, .nullWord⟩ <|
        objectText_cons lead_comma "part_id" ⟨rfl, _, hname⟩ <|
        objectText_cons lead_comma "offset" ⟨rfl, hzero⟩ objectText_nil) blank_nil
    have hlacks := hobject.lacksRaw Part.not_hasFree
    refine ⟨hobject, (Wire.reads_objects_exactly.1.gets_iff hobject hlacks _).2
      ⟨?_, ?_, ?_, ?_, trivial⟩⟩
    · exact .member rfl hread
    · exact .member rfl rfl
    · exact .member rfl rfl
    · exact .absent rfl rfl
  · have hattributes : Spells (.object [("b", .boolean true), ("a", .null)]) _ :=
      .object <| objectText_cons lead_nil "b" .trueWord <|
        objectText_cons lead_comma "a" .nullWord objectText_nil
    have hparts : Spells (.list []) ['[', ']'] := .list listText_nil
    have hlacks : (Shape.record CommitRequest.shapes).LacksRaw _ :=
      ⟨.object [("attributes", .object [("b", .boolean true), ("a", .null)]), ("parts", .list [])],
        .blanks blank_nil (.object <| objectText_cons lead_nil "attributes" hattributes <|
          objectText_cons lead_comma "parts" hparts objectText_nil) blank_nil, ?_⟩
    · have hobject := IsObject.blanks blank_nil
        (objectText_cons lead_nil "attributes" ⟨rfl, _, hattributes⟩ <|
          objectText_cons lead_comma "parts" ⟨rfl, _, hparts⟩ objectText_nil) blank_nil
      have hread := eq_ok_of_toOption
        ((reads_nullable reads_json).toOption (levels - 1) hattributes)
      have hcommit := Wire.reads_objects_exactly.2.2.2.2.2.2.2.2.2.2.2.1
      refine ⟨hlacks, (hcommit.gets_iff hobject hlacks _).2 ⟨?_, ?_, trivial⟩⟩
      · exact .member rfl rfl
      · exact .member rfl hread
    · rintro (_ | _ | _ | ⟨hfield, hmem, hraw⟩)
      simp only [CommitRequest.shapes, List.mem_cons, List.not_mem_nil, or_false, Prod.mk.injEq]
        at hfield hmem
      rcases hfield with ⟨rfl, rfl⟩ | ⟨rfl, rfl⟩
      · obtain ⟨-, rfl⟩ := hmem.resolve_left fun h => absurd h.1 (by decide)
        cases hraw with
        | item hitem => cases hitem
      · obtain ⟨-, rfl⟩ := hmem.resolve_right fun h => absurd h.1 (by decide)
        cases hraw with
        | nullable hraw =>
          cases hraw with
          | free hraw =>
            rcases Tree.hasRaw_object_iff.1 hraw with hfirst | ⟨m, hm, hraw⟩
            · exact absurd hfirst (by decide)
            · rcases List.mem_pair.1 hm with rfl | rfl <;> cases hraw

end ResumableUpload
