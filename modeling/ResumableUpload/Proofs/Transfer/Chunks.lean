import ResumableUpload.Proofs.Transfer.Stream

/-!
# Chunks one after the other

What a sequence of calls for chunks comes to, however the stream delivers its bytes. A call that
fails is made again for the same length, and apart from that the lengths may be any (`Chunked`).
Then the chunks are the slices of the content that follow on from each other
(`Chunked.assembles_slices`).

Between two calls, of any lengths, the source stands where the chunks so far end, and what waits is
bounded by the calls that have failed since the last chunk (`Source.Stands`). How a chunk is
assembled is said by its reads (`Reader.Pulls`). Each is offered the room of the bytes that are
missing, and what they return is appended to what waits (`Source.fill_pulls`). So a chunk is what
the reads for it have returned, over all the calls that it took.
-/

namespace ResumableUpload

/-! ## The reads for a chunk -/

/-- One read: the room that it is offered, and its outcome. -/
structure Pull where
  room : Nat
  outcome : ReadOutcome

/-- The bytes that reads have returned, in their order. -/
def pulled (pulls : List Pull) : Bytes := pulls.flatMap (·.outcome.got)

/-- The reads lead from one state of a stream to another, one after the other. -/
inductive Reader.Pulls : Reader → List Pull → Reader → Prop
  | nil (r : Reader) : Pulls r [] r
  | cons {r r' r'' : Reader} {room : Nat} {outcome : ReadOutcome} {pulls : List Pull}
      (hread : r.read room = (outcome, r')) (hrest : Pulls r' pulls r'') :
      Pulls r (⟨room, outcome⟩ :: pulls) r''

/-- Some bytes are missing before each read, and it is offered the room for them. -/
def OfferMissing : (missing : Nat) → List Pull → Prop
  | _, [] => True
  | missing, pull :: pulls =>
    0 < missing ∧ pull.room = missing ∧ OfferMissing (missing - pull.outcome.got.length) pulls

namespace Source

/-- The reads that filling up to `length` bytes takes. -/
def FilledBy (length : Nat) (s t : Source) (pulls : List Pull) : Prop :=
  s.reader.Pulls pulls t.reader ∧ OfferMissing (length - s.pending.length) pulls ∧
    t.pending = s.pending ++ pulled pulls

/-- A read that does not end the filling goes before the others. -/
theorem FilledBy.of_read {length : Nat} {s t : Source} {outcome : ReadOutcome} {reader : Reader}
    {pulls : List Pull} (hread : s.reader.read (length - s.pending.length) = (outcome, reader))
    (hshort : s.pending.length < length)
    (hrest : FilledBy length { s with reader, pending := s.pending ++ outcome.got } t pulls) :
    FilledBy length s t (⟨length - s.pending.length, outcome⟩ :: pulls) := by
  obtain ⟨hpulls, hoffer, hpending⟩ := hrest
  refine ⟨.cons hread hpulls, ⟨by omega, rfl, ?_⟩, ?_⟩
  · simpa only [List.length_append, Nat.sub_add_eq] using hoffer
  · rw [hpending, List.append_assoc]
    rfl

/-- A read that returns nothing may be the last one. -/
theorem FilledBy.of_last {length : Nat} {s t : Source} {outcome : ReadOutcome}
    (hread : s.reader.read (length - s.pending.length) = (outcome, t.reader))
    (hshort : s.pending.length < length) (hnone : outcome.got = [])
    (hpending : t.pending = s.pending) :
    FilledBy length s t [⟨length - s.pending.length, outcome⟩] := by
  refine .of_read hread hshort ⟨.nil t.reader, trivial, ?_⟩
  rw [hnone, hpending, List.append_nil]
  exact (List.append_nil s.pending).symm

/-- Every read of a filling is offered the room that is missing, and nothing that it returns is
lost. -/
theorem fill_pulls (s : Source) (length : Nat) :
    ∃ pulls, FilledBy length s (s.fill length).2 pulls := by
  fun_induction fill s length with
  | case1 s hopen reader hread => exact ⟨_, .of_last hread hopen.1 rfl rfl⟩
  | case2 s hopen b bs reader hread ih =>
    obtain ⟨pulls, hpulls⟩ := ih
    exact ⟨_, .of_read hread hopen.1 hpulls⟩
  | case3 s hopen reader hread ih =>
    obtain ⟨pulls, hpulls⟩ := ih
    have hrest : FilledBy length { s with reader, pending := s.pending ++ ReadOutcome.notReady.got }
        (fill { s with reader } length).2 pulls := by
      simpa only [ReadOutcome.got, List.append_nil] using hpulls
    exact ⟨_, .of_read hread hopen.1 hrest⟩
  | case4 s hopen cause reader hread => exact ⟨_, .of_last hread hopen.1 rfl rfl⟩
  | case5 s hdone => exact ⟨[], .nil s.reader, trivial, (List.append_nil s.pending).symm⟩

end Source

/-! ## Calls -/

/-- A call for a chunk: the length that is asked for, and the answer. -/
structure ChunkCall where
  length : Nat
  answer : Except String Bytes

namespace ChunkCall

/-- The chunk of a call that has not failed. -/
def chunk (call : ChunkCall) : Bytes := (call.answer.toOption).getD []

/-- The bytes that calls have handed out, in their order. -/
def handedOut (calls : List ChunkCall) : Bytes := calls.flatMap chunk

/-- A call that has failed is made again for the same length. -/
def Allows (calls : List ChunkCall) (length : Nat) : Prop :=
  ∀ call ∈ calls.getLast?, ∀ cause, call.answer = .error cause → length = call.length

end ChunkCall

open ChunkCall (handedOut Allows)

/-- The greatest length that has been asked for in vain since the last chunk. -/
def askedInVain (calls : List ChunkCall) : Nat :=
  calls.foldl (fun most call =>
    match call.answer with
    | .ok _ => 0
    | .error _ => max most call.length) 0

namespace ChunkCall

variable {calls : List ChunkCall} {length : Nat}

/-- One more call hands out what it answers. -/
theorem handedOut_concat (calls : List ChunkCall) (call : ChunkCall) :
    handedOut (calls ++ [call]) = handedOut calls ++ call.chunk := by
  rw [handedOut, List.flatMap_append, List.flatMap_singleton, handedOut]

/-- One more call that fails has asked for its length in vain. -/
theorem askedInVain_failed (cause : String) :
    askedInVain (calls ++ [⟨length, .error cause⟩]) = max (askedInVain calls) length := by
  rw [askedInVain, List.foldl_concat]
  rfl

/-- After a chunk nothing has been asked for in vain. -/
theorem askedInVain_chunk (chunk : Bytes) : askedInVain (calls ++ [⟨length, .ok chunk⟩]) = 0 := by
  rw [askedInVain, List.foldl_concat]

end ChunkCall

/-! ## Where calls leave a source -/

namespace Source

variable {stream : Reader} {before : List ChunkCall} {s t : Source} {length : Nat} {chunk : Bytes}

/-- A chunk is what waits when the filling is over. -/
theorem fill_of_nextChunk (h : s.nextChunk length = (.ok chunk, t)) :
    ∃ v, s.fill length = (none, v) ∧ chunk = v.pending ∧
      t = { v with position := v.position + v.pending.length, pending := [] } := by
  rcases hfill : s.fill length with ⟨_ | cause, v⟩
  · simp only [nextChunk, hfill, Prod.mk.injEq, Except.ok.injEq] at h
    exact ⟨v, rfl, h.1.symm, h.2.symm⟩
  · simp only [nextChunk, hfill, Prod.mk.injEq, reduceCtorEq, false_and] at h

/-- Where a source stands between two calls. -/
structure Stands (stream : Reader) (before : List ChunkCall) (s : Source) : Prop where
  cut : s.CutFrom stream
  position_eq : s.position = (handedOut before).length
  handedOut_eq : handedOut before = stream.content.take s.position
  /-- What waits has been asked for in vain. -/
  waiting_le : s.pending.length ≤ askedInVain before

theorem stands_ofReader (stream : Reader) : Stands stream [] (ofReader stream) where
  cut := cutFrom_ofReader stream
  position_eq := rfl
  handedOut_eq := List.take_zero.symm
  waiting_le := Nat.le_refl 0

/-- A call leaves the source where its chunk ends, or where it stood. -/
theorem Stands.call (h : Stands stream before s) {answer : Except String Bytes}
    (hchunk : s.nextChunk length = (answer, t)) :
    Stands stream (before ++ [⟨length, answer⟩]) t := by
  obtain ⟨hcut, hroom, herror, hok⟩ := h.cut.of_nextChunk hchunk
  cases answer with
  | error cause =>
    have hposition := herror cause rfl
    have hsame : handedOut (before ++ [⟨length, .error cause⟩]) = handedOut before :=
      (ChunkCall.handedOut_concat _ _).trans (List.append_nil _)
    refine ⟨hcut, by rw [hsame, hposition, h.position_eq], by rw [hsame, hposition, h.handedOut_eq],
      ?_⟩
    rw [ChunkCall.askedInVain_failed]
    have hwaiting := h.waiting_le
    omega
  | ok chunk =>
    obtain ⟨hslice, hposition⟩ := hok chunk rfl
    have hadded : handedOut (before ++ [⟨length, .ok chunk⟩]) = handedOut before ++ chunk :=
      ChunkCall.handedOut_concat _ _
    obtain ⟨v, -, -, rfl⟩ := fill_of_nextChunk hchunk
    refine ⟨hcut, ?_, ?_, Nat.zero_le _⟩
    · rw [hadded, List.length_append, hposition, h.position_eq]
    · rw [hadded, hposition, List.take_add, ← h.handedOut_eq]
      exact congrArg (handedOut before ++ ·) hslice

end Source

/-! ## Calls that are made again if they fail -/

/-- What calls for the chunks of a stream come to, one after the other. -/
inductive Chunked (stream : Reader) : List ChunkCall → Source → Prop
  | nil : Chunked stream [] (.ofReader stream)
  | call {calls : List ChunkCall} {s t : Source} {length : Nat} {answer : Except String Bytes}
      (h : Chunked stream calls s) (hlength : Allows calls length)
      (hchunk : s.nextChunk length = (answer, t)) :
      Chunked stream (calls ++ [⟨length, answer⟩]) t

/-- What a call that goes on from a source comes to. It fails, and what its reads have returned
waits with the rest; or it hands out the slice of the content that is next, which is what has waited
and what its reads have returned. -/
inductive Called (stream : Reader) (s : Source) (length : Nat) (pulls : List Pull) :
    Except String Bytes × Source → Prop
  | failed {cause : String} {t : Source} (hposition : t.position = s.position)
      (hpending : t.pending = s.pending ++ pulled pulls) (hroom : t.pending.length ≤ length) :
      Called stream s length pulls (.error cause, t)
  /-- The chunk is short only if the stream has ended. -/
  | chunk {chunk : Bytes} {t : Source} (hslice : chunk = stream.content.slice s.position length)
      (hpulled : chunk = s.pending ++ pulled pulls)
      (hposition : t.position = s.position + chunk.length) (hpending : t.pending = [])
      (hshort : chunk.length < length → t.isExhausted = true) :
      Called stream s length pulls (.ok chunk, t)

/-- What has been handed out and what waits do not go beyond what a call asks for. -/
theorem Called.reach_le {stream : Reader} {s : Source} {length : Nat} {pulls : List Pull}
    {out : Except String Bytes × Source} (h : Called stream s length pulls out) :
    out.2.position + out.2.pending.length ≤ s.position + length := by
  cases h with
  | failed hposition _ hroom =>
    rw [hposition]
    exact Nat.add_le_add_left hroom _
  | chunk hslice _ hposition hpending _ =>
    rw [hposition, hpending, hslice, Bytes.length_slice]
    exact Nat.add_le_add_left (Nat.min_le_left _ _) _

/-- A call goes on from where the source stands, if there is room for what waits. -/
theorem Source.CutFrom.called {stream : Reader} {s : Source} (h : s.CutFrom stream) {length : Nat}
    (hroom : s.pending.length ≤ length) :
    (s.nextChunk length).2.CutFrom stream ∧ ∃ pulls,
      s.reader.Pulls pulls (s.nextChunk length).2.reader ∧
      OfferMissing (length - s.pending.length) pulls ∧
      Called stream s length pulls (s.nextChunk length) := by
  obtain ⟨⟨cause, t⟩, hfill⟩ : ∃ out, s.fill length = out := ⟨_, rfl⟩
  obtain ⟨pulls, hpulls, hoffer, hpending⟩ := s.fill_pulls length
  have hfilled := s.fill_filled length
  rw [hfill] at hpulls hpending hfilled
  have hcut : t.CutFrom stream := h.of_filled hfilled
  have hlength : t.pending.length ≤ length := Nat.le_trans hfilled.room (by omega)
  cases cause with
  | some cause =>
    simp only [nextChunk, hfill]
    exact ⟨hcut, pulls, hpulls, hoffer, .failed hfilled.position_eq hpending hlength⟩
  | none =>
    have hslice : stream.content.slice s.position length = t.pending := by
      rw [← hfilled.position_eq]
      exact hcut.take_pending hlength (hfilled.full rfl)
    simp only [nextChunk, hfill]
    refine ⟨hcut.handOut, pulls, hpulls, hoffer, ?_⟩
    refine .chunk hslice.symm hpending (by rw [← hfilled.position_eq]) rfl fun hshort => ?_
    have hend := (hfilled.full rfl).resolve_left (Nat.not_le.2 hshort)
    exact Bool.and_eq_true_iff.2 ⟨hend, rfl⟩

/-- What holds between two calls. What waits fits into any chunk that may be asked for. -/
structure Chunked.Between (stream : Reader) (calls : List ChunkCall) (s : Source) : Prop where
  cut : s.CutFrom stream
  position_eq : s.position = (handedOut calls).length
  handedOut_eq : handedOut calls = stream.content.take s.position
  room : ∀ length, Allows calls length → s.pending.length ≤ length

namespace Chunked

variable {stream : Reader} {calls : List ChunkCall} {s t : Source} {length : Nat}

/-- Where a source stands between calls that are made again if they fail. -/
theorem stands (h : Chunked stream calls s) : Source.Stands stream calls s := by
  induction h with
  | nil => exact Source.stands_ofReader stream
  | call _ _ hchunk ih => exact ih.call hchunk

/-- What has been asked for in vain is no more than what may be asked for next. -/
theorem askedInVain_le (h : Chunked stream calls s) (hlength : Allows calls length) :
    askedInVain calls ≤ length := by
  induction h generalizing length with
  | nil => exact Nat.zero_le length
  | @call calls _ _ failed answer _ hallowed _ ih =>
    cases answer with
    | ok chunk =>
      rw [ChunkCall.askedInVain_chunk]
      exact Nat.zero_le length
    | error cause =>
      obtain rfl : length = failed := hlength _ List.getLast?_concat cause rfl
      rw [ChunkCall.askedInVain_failed]
      exact Nat.max_le.2 ⟨ih hallowed, Nat.le_refl length⟩

/-- Between two calls everything is in its place. -/
theorem between (h : Chunked stream calls s) : Between stream calls s where
  cut := h.stands.cut
  position_eq := h.stands.position_eq
  handedOut_eq := h.stands.handedOut_eq
  room := fun _ hallowed => Nat.le_trans h.stands.waiting_le (h.askedInVain_le hallowed)

end Chunked

/-- However a stream delivers its bytes, its chunks are the slices of its content. Let calls for
chunks have been made, each failed one again for the same length, and let `p` be the number of the
bytes that they have handed out. These are the first `p` bytes of the content, and the position is
`p`. Then a call for `length` bytes, which has to be the length of the last call if that has failed,
either fails, with the position as it is and all that its reads have returned behind what waited, or
hands out the bytes of the content from `p` on, `length` of them or as many as there are, which are
the bytes that waited and those that its reads have returned; they are fewer only if the stream has
ended (`Called`). Each read is offered the room of the bytes that are still missing, so that no more
than `p + length` bytes are gone from the stream. -/
theorem Chunked.assembles_slices {stream : Reader} {calls : List ChunkCall} {s : Source}
    (h : Chunked stream calls s) {length : Nat} (hlength : Allows calls length) :
    let p := (handedOut calls).length
    let t := (s.nextChunk length).2
    s.position = p ∧ handedOut calls = stream.content.take p ∧
      ∃ pulls, s.reader.Pulls pulls t.reader ∧ OfferMissing (length - s.pending.length) pulls ∧
        stream.unread ≤ t.reader.unread + (p + length) ∧
        Called stream s length pulls (s.nextChunk length) := by
  intro p t
  have hbetween := h.between
  have hposition : s.position = p := hbetween.position_eq
  obtain ⟨hcut, pulls, hpulls, hoffer, hcalled⟩ :=
    hbetween.cut.called (hbetween.room length hlength)
  have hsupply : t.position + t.pending.length + t.reader.unread = stream.unread := hcut.supply
  have hreach : t.position + t.pending.length ≤ s.position + length := hcalled.reach_le
  exact ⟨hposition, hposition ▸ hbetween.handedOut_eq, pulls, hpulls, hoffer, by omega, hcalled⟩

/-- Five bytes, of which a read returns two at most, with a failure and a stall in between. The
first call has failed with three bytes waiting; the second hands out four bytes, and asks for the
one that is missing. -/
theorem Chunked.assembles_four_bytes :
    let stream : Reader :=
      .ofScript [.data [1, 2, 3] (some 2), .failure "reset", .stall, .data [4, 5] none]
    ∃ s t, Chunked stream [⟨4, .error "reset"⟩] s ∧ Allows [⟨4, .error "reset"⟩] 4 ∧
      s.nextChunk 4 = (.ok [1, 2, 3, 4], t) ∧ [1, 2, 3, 4] = stream.content.slice 0 4 ∧
      t.reader.requests = [1, 1, 1, 2, 4] ∧ stream.unread ≤ t.reader.unread + 4 := by
  intro stream
  let waiting : Source := ⟨⟨[.stall, .data [4, 5] none], [1, 2, 4]⟩, 0, [1, 2, 3], false⟩
  have hfirst : (Source.ofReader stream).nextChunk 4 = (.error "reset", waiting) := by cbv
  have hcalls : Chunked stream [⟨4, .error "reset"⟩] waiting :=
    .call .nil (by rintro _ ⟨⟩) hfirst
  have hallowed : Allows [⟨4, .error "reset"⟩] 4 := by
    rintro _ ⟨⟩ _ _
    rfl
  have hsecond : waiting.nextChunk 4 =
      (.ok [1, 2, 3, 4], ⟨⟨[.data [5] none], [1, 1, 1, 2, 4]⟩, 4, [], false⟩) := by
    cbv
  obtain ⟨-, -, pulls, -, -, hread, hcalled⟩ := hcalls.assembles_slices hallowed
  rw [hsecond] at hread hcalled
  cases hcalled with
  | chunk hslice => exact ⟨_, _, hcalls, hallowed, hsecond, hslice, rfl, hread⟩

end ResumableUpload
