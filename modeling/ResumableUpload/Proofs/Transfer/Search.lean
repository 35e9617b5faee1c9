import ResumableUpload.Transfer.Uploader

/-!
# How the next part is looked for

`Sought` lists what looking for the next part can come to, in any state and for parts of any size:
where the part is found, or why it is not, and what has changed. Nothing is assumed of the state, so
whatever is shown by these cases also holds while the size of the parts changes between attempts.
-/

namespace ResumableUpload.Uploader

/-- The part at an offset has been read before, and is not in the slot. -/
def Passed (u : Uploader) (offset : Nat) : Prop :=
  match u.slot with
  | .idle => offset < u.digestedThrough
  | .holding part => part.offset ≠ offset

/-- What looking for the next part comes to. -/
inductive Sought {ε : Type} (partSize : Nat) (u : Uploader) :
    Except (TransferError ε) Next × Uploader → Prop
  /-- The part has been waiting in the slot. -/
  | waiting {part : InFlight} (hslot : u.slot = .holding part)
      (hoffset : part.offset = u.committed.length * partSize) :
      Sought partSize u (.ok (.atHand part), { u with slot := .idle })
  /-- The part has been read before, and its record is known. -/
  | recorded {record : Part} (hpassed : u.Passed (u.committed.length * partSize))
      (hknown : u.known[u.committed.length * partSize]? = some record) :
      Sought partSize u (.ok (.recorded record), u)
  /-- The part has been read before, and no record of it is known. -/
  | missing (hpassed : u.Passed (u.committed.length * partSize))
      (hknown : u.known[u.committed.length * partSize]? = none) :
      Sought partSize u (.error (.partUnavailable (u.committed.length * partSize)), u)
  /-- The part is read in full. -/
  | read {s t : Source} {chunk : Bytes} (hidle : u.slot = .idle)
      (hahead : u.digestedThrough ≤ u.committed.length * partSize) (hcontent : u.content = some s)
      (hposition : s.position = u.committed.length * partSize)
      (hchunk : s.nextChunk (Geometry.partLength u.fileSize.toNat partSize
        (u.committed.length * partSize)) = (.ok chunk, t))
      (hfull : chunk.length = Geometry.partLength u.fileSize.toNat partSize
        (u.committed.length * partSize)) :
      Sought partSize u (.ok (.atHand ⟨u.committed.length * partSize, chunk⟩),
        { u with content := some t })
  /-- Reading fails. -/
  | interrupted {s t : Source} {cause : String} (hidle : u.slot = .idle)
      (hahead : u.digestedThrough ≤ u.committed.length * partSize) (hcontent : u.content = some s)
      (hposition : s.position = u.committed.length * partSize)
      (hchunk : s.nextChunk (Geometry.partLength u.fileSize.toNat partSize
        (u.committed.length * partSize)) = (.error cause, t)) :
      Sought partSize u (.error (.io cause), { u with content := some t })
  /-- What is read is not as long as the part. -/
  | torn {s t : Source} {chunk : Bytes} (hidle : u.slot = .idle)
      (hahead : u.digestedThrough ≤ u.committed.length * partSize) (hcontent : u.content = some s)
      (hposition : s.position = u.committed.length * partSize)
      (hchunk : s.nextChunk (Geometry.partLength u.fileSize.toNat partSize
        (u.committed.length * partSize)) = (.ok chunk, t))
      (hpartial : chunk.length ≠ Geometry.partLength u.fileSize.toNat partSize
        (u.committed.length * partSize)) :
      Sought partSize u (.error (.truncatedStream (u.committed.length * partSize)),
        { u with content := some t })
  /-- The stream does not stand at the part. -/
  | stranded {s : Source} (hidle : u.slot = .idle)
      (hahead : u.digestedThrough ≤ u.committed.length * partSize) (hcontent : u.content = some s)
      (hposition : s.position ≠ u.committed.length * partSize) :
      Sought partSize u (.error (.partUnavailable (u.committed.length * partSize)), u)
  /-- The upload has been given up. -/
  | released (hidle : u.slot = .idle) (hcontent : u.content = none) :
      Sought partSize u (.error .aborted, u)

variable {ε : Type} {u w : Uploader} {partSize : Nat}

/-- What reading the next part comes to. -/
theorem readPart_sought (hidle : u.slot = .idle)
    (hahead : u.digestedThrough ≤ u.committed.length * partSize) :
    Sought (ε := ε) partSize u (u.readPart (u.committed.length * partSize) partSize) := by
  rw [readPart]
  cases hcontent : u.content with
  | none => exact .released hidle hcontent
  | some s =>
    by_cases hposition : s.position = u.committed.length * partSize
    · simp only [if_pos hposition]
      rcases hchunk : s.nextChunk (Geometry.partLength u.fileSize.toNat partSize
        (u.committed.length * partSize)) with ⟨cause | chunk, t⟩
      · exact .interrupted hidle hahead hcontent hposition hchunk
      · by_cases hfull : chunk.length = Geometry.partLength u.fileSize.toNat partSize
            (u.committed.length * partSize)
        · simp only [if_pos hfull]
          exact .read hidle hahead hcontent hposition hchunk hfull
        · simp only [if_neg hfull]
          exact .torn hidle hahead hcontent hposition hchunk hfull
    · simp only [if_neg hposition]
      exact .stranded hidle hahead hcontent hposition

/-- What looking for the next part comes to is one of these. -/
theorem next_sought (u : Uploader) (partSize : Nat) :
    Sought (ε := ε) partSize u (u.next partSize) := by
  have hremembered : u.Passed (u.committed.length * partSize) →
      Sought (ε := ε) partSize u (u.remembered (u.committed.length * partSize), u) := by
    intro hpassed
    rw [remembered]
    cases hknown : u.known[u.committed.length * partSize]? with
    | some record => exact .recorded hpassed hknown
    | none => exact .missing hpassed hknown
  rw [next]
  cases hslot : u.slot with
  | idle =>
    by_cases hread : u.committed.length * partSize < u.digestedThrough
    · simp only [if_pos hread]
      refine hremembered ?_
      rw [Passed, hslot]
      exact hread
    · simp only [if_neg hread]
      exact readPart_sought hslot (Nat.le_of_not_lt hread)
  | holding part =>
    by_cases hoffset : part.offset = u.committed.length * partSize
    · simp only [if_pos hoffset]
      exact .waiting hslot hoffset
    · simp only [if_neg hoffset]
      refine hremembered ?_
      rw [Passed, hslot]
      exact hoffset

/-- The part in the slot is the next one. -/
theorem next_of_waiting {part : InFlight} (hslot : u.slot = .holding part)
    (hoffset : part.offset = u.committed.length * partSize) :
    u.next (ε := ε) partSize = (.ok (.atHand part), { u with slot := .idle }) := by
  simp only [next, hslot, if_pos hoffset]

/-- With nothing in the slot, the record of a part that has been read is looked up. -/
theorem next_of_known {record : Part} (hidle : u.slot = .idle)
    (hread : u.committed.length * partSize < u.digestedThrough)
    (hknown : u.known[u.committed.length * partSize]? = some record) :
    u.next (ε := ε) partSize = (.ok (.recorded record), u) := by
  simp only [next, hidle, if_pos hread, remembered, hknown]

/-- With nothing in the slot, a part that is ahead of the digest is read where the stream stands. -/
theorem next_of_whole {s t : Source} {chunk : Bytes} (hidle : u.slot = .idle)
    (hahead : u.digestedThrough ≤ u.committed.length * partSize) (hcontent : u.content = some s)
    (hposition : s.position = u.committed.length * partSize)
    (hchunk : s.nextChunk (Geometry.partLength u.fileSize.toNat partSize
      (u.committed.length * partSize)) = (.ok chunk, t))
    (hfull : chunk.length = Geometry.partLength u.fileSize.toNat partSize
      (u.committed.length * partSize)) :
    u.next (ε := ε) partSize = (.ok (.atHand ⟨u.committed.length * partSize, chunk⟩),
      { u with content := some t }) := by
  simp only [next, hidle, if_neg (Nat.not_lt.2 hahead), readPart, hcontent, if_pos hposition,
    hchunk, if_pos hfull]

/-- Looking for the next part may take it out of its slot or read from the content, and changes
nothing else. -/
theorem Sought.frame {result : Except (TransferError ε) Next} (h : Sought partSize u (result, w)) :
    w = { u with content := w.content, slot := w.slot } := by
  cases h <;> rfl

/-- A part that is at hand is the next one, and the slot is empty. -/
theorem Sought.of_atHand {part : InFlight}
    (h : Sought (ε := ε) partSize u (.ok (.atHand part), w)) :
    part.offset = u.committed.length * partSize ∧ w.slot = .idle := by
  cases h with
  | waiting _ hoffset => exact ⟨hoffset, rfl⟩
  | read hidle => exact ⟨rfl, hidle⟩

end ResumableUpload.Uploader
