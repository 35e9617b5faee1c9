import ResumableUpload.Proofs.Transfer.Chunks

/-!
# How long a chunk is

Calls for chunks may ask for any lengths, one after the other (`Source.calls`). A call that fails
keeps the bytes that it has read for the next one, and that may ask for less. A chunk then is as
long as what waits for it, and nothing is read (`Source.chunk_exceeds_iff_more_waits`). So a chunk
may be longer than what is asked for, but never longer than what has been asked for since the last
chunk (`askedInVain`); and it is shorter only at the end of the stream.

Unlike in `Chunked`, a failed call need not be made again for the same length. What a source keeps
between two calls does not depend on that (`Source.Stands`).
-/

namespace ResumableUpload

open ChunkCall (handedOut)

namespace Source

variable {stream : Reader} {before : List ChunkCall} {s t : Source} {length : Nat} {chunk : Bytes}

/-- Calls for chunks of these lengths, one after the other: their answers, and the source behind
them. -/
def calls (s : Source) : List Nat → List ChunkCall × Source
  | [] => ([], s)
  | length :: lengths =>
    let (answer, t) := s.nextChunk length
    let (rest, last) := t.calls lengths
    (⟨length, answer⟩ :: rest, last)

/-! ## One call -/

/-- With enough bytes waiting nothing is read. -/
theorem fill_of_le (h : length ≤ s.pending.length) : s.fill length = (none, s) := by
  rw [fill, if_neg fun hshort => Nat.not_lt.2 h hshort.1]

/-- If more waits than is asked for, all of it is handed out and nothing is read. -/
theorem nextChunk_of_more_waits (hmore : length < s.pending.length)
    (h : s.nextChunk length = (.ok chunk, t)) : chunk = s.pending ∧ t.reader = s.reader := by
  obtain ⟨v, hfill, rfl, rfl⟩ := fill_of_nextChunk h
  cases (fill_of_le (Nat.le_of_lt hmore)).symm.trans hfill
  exact ⟨rfl, rfl⟩

/-- A chunk is longer than what is asked for exactly if more waits for it. -/
theorem lt_length_chunk_iff (h : s.nextChunk length = (.ok chunk, t)) :
    length < chunk.length ↔ length < s.pending.length := by
  constructor
  · intro hlong
    obtain ⟨v, hfill, rfl, -⟩ := fill_of_nextChunk h
    have hfilled : Filled length s none v := by simpa only [hfill] using s.fill_filled length
    have hroom := hfilled.room
    omega
  · intro hmore
    rw [(nextChunk_of_more_waits hmore h).1]
    exact hmore

/-- A chunk is shorter than what is asked for only if it is the last of the stream. -/
theorem CutFrom.ends_of_short (hcut : s.CutFrom stream) (h : s.nextChunk length = (.ok chunk, t))
    (hshort : chunk.length < length) :
    t.isExhausted = true ∧ s.position + chunk.length = stream.content.length := by
  obtain ⟨v, hfill, rfl, rfl⟩ := fill_of_nextChunk h
  have hfilled : Filled length s none v := by simpa only [hfill] using s.fill_filled length
  have hend : v.exhausted = true := (hfilled.full rfl).resolve_left (Nat.not_le.2 hshort)
  refine ⟨Bool.and_eq_true_iff.2 ⟨hend, rfl⟩, ?_⟩
  -- Behind what waits there is nothing left.
  have hahead := congrArg List.length (hcut.of_filled hfilled).ahead
  have hposition := hfilled.position_eq
  have hle := hcut.position_le
  rw [rest, if_pos hend, List.append_nil, List.length_drop, hposition] at hahead
  omega

/-! ## Calls one after the other -/

/-- So do calls for any lengths. -/
theorem Stands.calls (h : Stands stream before s) (lengths : List Nat) :
    Stands stream (before ++ (s.calls lengths).1) (s.calls lengths).2 := by
  induction lengths generalizing before s with
  | nil =>
    rw [Source.calls, List.append_nil]
    exact h
  | cons length lengths ih =>
    have hchunk : s.nextChunk length = ((s.nextChunk length).1, (s.nextChunk length).2) := rfl
    have hrest := ih (h.call hchunk)
    rw [List.append_assoc] at hrest
    exact hrest

/-- Let calls for chunks of any lengths have been made of a stream, and let the next call, for
`length` bytes, not fail. Its chunk is the slice of the content that follows on from the chunks
before. If it is shorter than `length`, the stream is exhausted and the content ends with it. It is
longer than `length` exactly if more bytes than that wait from calls that have failed; then the
chunk is all that waits, and nothing is read for it. No chunk is longer than the greatest length
that has been asked for since the last one, so it takes a call that has failed for more than
`length` bytes to make a chunk longer than `length`. -/
theorem chunk_exceeds_iff_more_waits (stream : Reader) (lengths : List Nat) (length : Nat) :
    let before := ((ofReader stream).calls lengths).1
    let s := ((ofReader stream).calls lengths).2
    ∀ chunk t, s.nextChunk length = (.ok chunk, t) →
      chunk = stream.content.slice (handedOut before).length chunk.length ∧
      (chunk.length < length → t.isExhausted = true ∧
        (handedOut before).length + chunk.length = stream.content.length) ∧
      (length < chunk.length ↔ length < s.pending.length) ∧
      (length < s.pending.length → chunk = s.pending ∧ t.reader = s.reader) ∧
      chunk.length ≤ max length (askedInVain before) := by
  intro before s chunk t h
  have hstands : Stands stream before s := (stands_ofReader stream).calls lengths
  obtain ⟨-, -, -, hok⟩ := hstands.cut.of_nextChunk h
  have hlong := lt_length_chunk_iff h
  refine ⟨hstands.position_eq ▸ (hok chunk rfl).1,
    hstands.position_eq ▸ hstands.cut.ends_of_short h, hlong,
    fun hmore => nextChunk_of_more_waits hmore h, ?_⟩
  rcases Nat.lt_or_ge length chunk.length with hexceeds | hle
  · have hwaiting := hstands.waiting_le
    rw [(nextChunk_of_more_waits (hlong.1 hexceeds) h).1]
    omega
  · exact Nat.le_trans hle (Nat.le_max_left _ _)

/-- A call for three bytes has read two of them when it fails. The next call asks for one byte, and
is handed two, for which it reads nothing. -/
theorem hands_out_two_bytes_for_one :
    let stream : Reader := .ofScript [.data [97, 98] none, .failure "boom"]
    let s := ((ofReader stream).calls [3]).2
    ∃ t, s.nextChunk 1 = (.ok [97, 98], t) ∧ [97, 98] = stream.content.slice 0 2 ∧
      s.pending = [97, 98] ∧ t.reader = s.reader := by
  intro stream s
  let waiting : Source := ⟨⟨[], [1, 3]⟩, 0, [97, 98], false⟩
  have hfailed : (ofReader stream).nextChunk 3 = (.error "boom", waiting) := by cbv
  have hcalls : (ofReader stream).calls [3] = ([⟨3, .error "boom"⟩], waiting) := by
    simp only [calls, hfailed]
  have hs : s = waiting := congrArg Prod.snd hcalls
  obtain ⟨t, hchunk⟩ : ∃ t, s.nextChunk 1 = (.ok [97, 98], t) := by
    rw [hs]
    exact ⟨⟨⟨[], [1, 3]⟩, 2, [], false⟩, by cbv⟩
  obtain ⟨hslice, -, hlong, hmore, -⟩ := chunk_exceeds_iff_more_waits stream [3] 1 _ _ hchunk
  obtain ⟨hwaits, hread⟩ := hmore (hlong.1 (by decide))
  rw [hcalls] at hslice
  exact ⟨t, hchunk, hslice, hwaits.symm, hread⟩

end Source

end ResumableUpload
