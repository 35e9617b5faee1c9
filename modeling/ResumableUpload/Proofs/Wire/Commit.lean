import ResumableUpload.Proofs.Json.Canonical
import ResumableUpload.Proofs.Wire.RoundTrip

/-!
# The body of a commit

The attributes of a commit are free-form. A request that has been read from a text has attributes
that are canonical (`attributes_of_decode`), so that from then on writing and reading it changes
nothing: the text that it came from may have had blanks, members in any order and any number of
times, or the form of a list, and the text that is written of it has one form
(`reads_back_once_read`).

Whatever the attributes are, read or made, the parts of a body are read back from it
(`decode_parts`).
-/

namespace ResumableUpload.CommitRequest

open Json Codec

/-- A request is kept if its attributes are. -/
theorem keeps {r : CommitRequest} {depth : Nat} (hdepth : 2 ≤ depth)
    (h : ∀ v ∈ r.attributes, Codec.json.Keeps depth v) : codec.Keeps (depth + 1) r :=
  keeps_record fits
    ⟨Field.keeps_required _ ((keeps_list Part.understands.reads fun p _ => p.keeps).mono hdepth),
      Field.keeps_optional _ understands_json.reads h, trivial⟩ rfl

/-- The attributes of a request that has been read are canonical, and none if they were null. -/
theorem attributes_of_decode {text : String} {r : CommitRequest} (h : codec.decode text = .ok r) :
    ∀ v ∈ r.attributes, Canonical (levels - 1) v ∧ v ≠ .null := by
  unfold decode at h
  split at h
  next => cases h
  next value rest hread =>
    split at h
    next =>
      cases h
      obtain ⟨⟨_, attributes, _⟩, rfl, -, hattributes, -⟩ :=
        yields_record "CommitRequest" fields _ _ levels text.toList _ rest hread
      rcases hattributes with habsent | ⟨text, rest, hnullable⟩
      · cases habsent
        exact nofun
      · exact yields_nullable _ _ _ _ hnullable
    next => cases h

/-- A request that has been read, and has no doubles in its attributes, is read back from what is
written of it, and writing it again gives the same text. -/
theorem reads_back_once_read {text : String} {r : CommitRequest} (h : codec.decode text = .ok r)
    (hexact : ∀ v ∈ r.attributes, v.Exact) :
    codec.decode (codec.encode r) = .ok r ∧
      ∀ r', codec.decode (codec.encode r) = .ok r' → codec.encode r' = codec.encode r := by
  have hattributes : ∀ v ∈ r.attributes, Codec.json.Keeps (levels - 1) v := fun v hv =>
    have ⟨hcanonical, hnull⟩ := attributes_of_decode h v hv
    hcanonical.keeps (hexact v hv) hnull
  have hkeeps : codec.Keeps levels r := keeps (by decide) hattributes
  have hback := hkeeps.decode_encode understands.reads
  refine ⟨hback, fun r' hr' => ?_⟩
  rw [hback] at hr'
  cases hr'
  rfl

/-- A request as a list of its fields. The keys of its attributes are in no order, and one of them
stands there twice. -/
theorem reads_back_unordered :
    let text :=
      "[[[\"a\",0,3]],\x7b\"b\": [-1, \x7b\"z\":null,\"y\":\"\"\x7d], \"a\":2, \"a\":true\x7d]"
    let written := "\x7b\"a\":true,\"b\":[-1,\x7b\"y\":\"\",\"z\":null\x7d]\x7d"
    ∃ r, codec.decode text = .ok r ∧ (∀ v ∈ r.attributes, v.Exact) ∧
      r.attributes.map Codec.json.encode = some written ∧
      codec.decode (codec.encode r) = .ok r := by
  intro text written
  have hall : (codec.decode text).toOption.any fun r =>
      (∀ v ∈ r.attributes, v.Exact) ∧ r.attributes.map Codec.json.encode = some written := by
    decide +kernel
  obtain ⟨r, hr, hexact⟩ := (Option.any_eq_true _ _).1 hall
  have hread := eq_ok_of_toOption hr
  obtain ⟨hexact, hwritten⟩ := of_decide_eq_true hexact
  exact ⟨r, hread, hexact, hwritten, (reads_back_once_read hread hexact).1⟩

/-! ## The parts of a body -/

/-- The parts alone: whatever else a body holds is skipped. -/
def partsFields : Fields (List Part × Unit) := .cons (.required "parts" (.list Part.codec)) .nil

def partsCodec : Codec (List Part) :=
  .record "CommitRequest" partsFields (fun parts => (parts, ())) fun (parts, ()) => parts

theorem reads_parts : Reads partsCodec.read fun levels tree =>
    (partsFields.meaning levels tree).map fun (parts, ()) => parts :=
  have hfits : partsFields.Fits [("parts", .list (.record Part.shapes))] :=
    ⟨by decide, rfl, understands_list Part.understands, trivial⟩
  reads_record hfits.understood.legible hfits.names

/-- Whatever the attributes are, the parts of a request are read back from what is written of it. -/
theorem decode_parts (r : CommitRequest) : partsCodec.decode (codec.encode r) = .ok r.parts := by
  obtain ⟨tree, -, hspelled, hread⟩ : (Codec.list Part.codec).Keeps 2 r.parts :=
    keeps_list Part.understands.reads fun p _ => p.keeps
  obtain ⟨ms, htexts, hvalues⟩ : ∃ ms,
      List.Forall₂ MemberText ms (fields.written (r.parts, r.attributes, ())) ∧
        valuesOf "parts" ms = [tree] := by
    cases r.attributes with
    | none => exact ⟨[("parts", tree)], .cons ⟨_, rfl, hspelled⟩ .nil, rfl⟩
    | some v =>
      exact ⟨[("parts", tree), ("attributes", v.tree)],
        .cons ⟨_, rfl, hspelled⟩ (.cons ⟨_, rfl, v.spells_tree⟩ .nil), rfl⟩
  have hwhole : Spells (.object ms) (codec.write r) := .object (objectText_joined htexts)
  have hmeaning : partsFields.meaning levels (.object ms) = some (r.parts, ()) := by
    show partsFields.gather (levels - 1) ms = _
    rw [partsFields, Fields.gather_cons, Field.settle_member hvalues, Field.required,
      hread (levels - 1) (by decide)]
    rfl
  have htext := reads_parts.toOption levels hwhole
  rw [hmeaning] at htext
  rw [decode, encode, String.toList_ofList, eq_ok_of_toOption htext]
  rfl

end ResumableUpload.CommitRequest
