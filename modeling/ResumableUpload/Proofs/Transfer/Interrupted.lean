import ResumableUpload.Proofs.Transfer.Kept
import ResumableUpload.Proofs.Transfer.Listing

/-!
# Uploads that are interrupted at their second part

Most that can go wrong with an upload takes a part that is on the server and another one in flight.
A start over a stream with all its bytes at hand comes to such a state if the session takes the
first part and fails at the second (`Uploader.exists_interrupted`), for any bytes, any session that
fits them, and any record and error that the session answers with.
-/

namespace ResumableUpload

namespace Source

variable {s : Source} {length : Nat} {returned : Bytes} {reader : Reader}

/-- With nothing pending, a read that returns all bytes of a chunk fills it. -/
theorem fill_of_read (hpending : s.pending = []) (hopen : s.exhausted = false)
    (hread : s.reader.read length = (.bytes returned, reader)) (hne : returned ≠ [])
    (hwhole : returned.length = length) :
    s.fill length = (none, { s with reader, pending := returned }) := by
  have hroom : length - s.pending.length = length := by rw [hpending]; rfl
  fun_cases fill s length with
  | case1 _ r h =>
    rw [hroom, hread] at h
    cases h
    exact absurd rfl hne
  | case2 _ b bs r h =>
    rw [hroom, hread] at h
    cases h
    rw [fill, if_neg]
    · simp only [hpending, List.nil_append]
    · intro hmore
      simp only [hpending, List.nil_append, hwhole] at hmore
      exact Nat.lt_irrefl _ hmore.1
  | case3 _ r h => rw [hroom, hread] at h; cases h
  | case4 _ cause r h => rw [hroom, hread] at h; cases h
  | case5 hdone =>
    refine absurd ⟨?_, hopen ▸ Bool.false_ne_true⟩ hdone
    rw [hpending, ← hwhole]
    exact List.length_pos_iff.2 hne

/-- Bytes that are at hand are read at once, and are the chunk. -/
theorem nextChunk_of_data {chunk : Bytes} (hchunk : chunk ≠ []) (rest : Bytes)
    (requests : List Nat) (position : Nat) :
    nextChunk ⟨⟨[.data (chunk ++ rest) none], requests⟩, position, [], false⟩ chunk.length =
      (.ok chunk, ⟨⟨[.data rest none], chunk.length :: requests⟩, position + chunk.length, [],
        false⟩) := by
  have hread : Reader.read ⟨[.data (chunk ++ rest) none], requests⟩ chunk.length =
      (.bytes chunk, ⟨[.data rest none], chunk.length :: requests⟩) := by
    simp [Reader.read, Delivery.deliver, hchunk]
  rw [nextChunk, fill_of_read rfl rfl hread hchunk rfl]

end Source

namespace Uploader

variable {ε : Type} {session : Session} {fileSize : UInt64} {u : Uploader}

/-- With nothing in the slot, bytes at hand that are as long as the next part become this part. -/
theorem next_of_data {partSize offset stop : Nat} {chunk rest : Bytes} {requests : List Nat}
    (hidle : u.slot = .idle) (hoffset : u.committed.length * partSize = offset)
    (hahead : u.digestedThrough ≤ offset) (hstop : offset + chunk.length = stop) (hne : chunk ≠ [])
    (hfull : chunk.length = Geometry.partLength u.fileSize.toNat partSize offset)
    (hcontent : u.content = some ⟨⟨[.data (chunk ++ rest) none], requests⟩, offset, [], false⟩) :
    u.next (ε := ε) partSize = (.ok (.atHand ⟨offset, chunk⟩),
      { u with
        content := some ⟨⟨[.data rest none], chunk.length :: requests⟩, stop, [], false⟩ }) := by
  subst hoffset hstop
  refine next_of_whole hidle hahead hcontent rfl ?_ hfull
  rw [← hfull]
  exact Source.nextChunk_of_data hne rest requests _

/-- The first part is accounted for by the record, and the second is in flight. -/
structure Interrupted (session : Session) (fileSize : UInt64) (front back rest : Bytes)
    (record : Part) (u : Uploader) : Prop where
  fileSize_eq : u.fileSize = fileSize
  active : u.aborted = false
  committed_eq : u.committed = [record]
  slot_eq : u.slot = .holding ⟨session.partSize.toNat, back⟩
  /-- The session is not known to have the second part. -/
  unknown : u.known[session.partSize.toNat]? = none
  through_eq : u.digestedThrough = front.length + back.length
  content_eq : u.content = some ⟨⟨[.data rest none], [back.length, front.length]⟩,
    front.length + back.length, [], false⟩

/-- The session takes the first part and fails at the second. -/
theorem exists_interrupted (hfits : session.Fits fileSize) (front back rest : Bytes)
    (record : Part) (e : TransferError ε)
    (hfront : front.length = session.partSize.toNat) (hne : back ≠ [])
    (hback : back.length =
      Geometry.partLength fileSize.toNat session.partSize.toNat session.partSize.toNat)
    (hrecord : record.offset.toNat ≠ session.partSize.toNat) :
    ∃ u, Attempted session (ofReader (.ofBytes (front ++ (back ++ rest))) fileSize) .start
        [.sent front 0 fileSize (.ok record), u.accounted session,
          .sent back session.partSize.toNat fileSize (.error e)] (.error e, u) ∧
      Interrupted session fileSize front back rest record u := by
  have hpos : 0 < back.length := List.length_pos_iff.2 hne
  have hlong : session.partSize.toNat < fileSize.toNat := by
    rw [Geometry.partLength] at hback
    omega
  have hwhole : front.length = Geometry.partLength fileSize.toNat session.partSize.toNat 0 := by
    rw [Geometry.partLength]
    omega
  let fresh : Uploader := ofReader (.ofBytes (front ++ (back ++ rest))) fileSize
  let opened : Uploader :=
    { fresh with
      content := some ⟨⟨[.data (back ++ rest) none], [front.length]⟩, front.length, [], false⟩ }
  have hfirst : fresh.next (ε := ε) session.partSize.toNat =
      (.ok (.atHand ⟨0, front⟩), opened) :=
    next_of_data rfl (Nat.zero_mul _) (Nat.zero_le _) (Nat.zero_add _)
      (List.length_pos_iff.1 (hfront ▸ hfits.1)) hwhole rfl
  let stored : Uploader := (opened.hash ⟨0, front⟩).account record
  have hnothing (offset : Nat) : (opened.hash ⟨0, front⟩).known[offset]? = none := by
    rw [known_hash]
    exact Std.ExtTreeMap.getElem?_empty
  have hstored : Turn (ε := ε) session fresh _ (.ok (), stored) := .stored hfirst (hnothing 0)
  have hthrough : stored.digestedThrough = session.partSize.toNat :=
    (Nat.zero_add front.length).trans hfront
  let drawn : Uploader :=
    { stored with
      content := some ⟨⟨[.data rest none], [back.length, front.length]⟩,
        front.length + back.length, [], false⟩ }
  have hsecond : stored.next (ε := ε) session.partSize.toNat =
      (.ok (.atHand ⟨session.partSize.toNat, back⟩), drawn) :=
    next_of_data rfl (Nat.one_mul _) (Nat.le_of_eq hthrough) (by rw [hfront]) hne hback
      (by rw [← hfront]; rfl)
  let second : InFlight := ⟨session.partSize.toNat, back⟩
  have hhashed : drawn.hash second =
      { drawn with digest := drawn.digest.feed back, digestedThrough := second.stop } :=
    if_pos hthrough.symm
  have hunknown : (drawn.hash second).known[second.offset]? = none := by
    rw [known_hash]
    show ((opened.hash ⟨0, front⟩).known.note record)[session.partSize.toNat]? = none
    rw [PartIndex.getElem?_note, if_neg hrecord, hnothing]
  let u : Uploader :=
    { drawn with
      digest := drawn.digest.feed back, digestedThrough := second.stop, slot := .holding second }
  have hheld : Turn session stored [.sent back session.partSize.toNat fileSize (.error e)]
      (.error e, u) := by
    have hheld := Turn.held (e := e) hsecond hunknown
    rw [hhashed] at hheld
    exact hheld
  obtain ⟨count, hcount⟩ : ∃ count, session.totalParts.toNat = count + 2 := by
    refine Nat.exists_eq_add_of_le' ?_
    rw [hfits.2]
    exact (hfits.layout (.ofBytes [])).lt_count_iff.2 ((Nat.one_mul _).symm ▸ hlong)
  have hturns : Turns session (count + 2) fresh _ _ := .more hstored (.failed hheld)
  have hstart : Attempted session fresh .start _ _ :=
    .start rfl (.stopped (Geometry.check_eq_ok_iff.2 hfits) (hcount ▸ hturns))
  rw [hhashed] at hunknown
  exact ⟨u, hstart, rfl, rfl, rfl, rfl, hunknown, by rw [hfront]; rfl, rfl⟩

end Uploader

end ResumableUpload
