import ResumableUpload.Transfer.Reader

/-!
# Chunks of a stream

A source cuts a stream into chunks. A chunk is assembled from as many reads as it takes; a read that
is not ready is repeated; bytes of a chunk that a failure interrupts are kept for the next call. A
chunk is short only at the end of the stream.
-/

namespace ResumableUpload

/-- A stream with the number of bytes handed out as chunks, and the bytes of the next chunk that
have been read already. -/
structure Source where
  reader : Reader
  position : Nat
  pending : Bytes
  exhausted : Bool
  deriving DecidableEq, Repr

namespace Source

/-- The start of a stream. -/
def ofReader (reader : Reader) : Source := ⟨reader, 0, [], false⟩

/-- Reads until `length` bytes are pending, or the stream ends, or a read fails. Each read is
offered the room of the bytes that are missing. Answers the cause of a failure. -/
def fill (s : Source) (length : Nat) : Option String × Source :=
  if s.pending.length < length ∧ ¬ s.exhausted then
    match _h : s.reader.read (length - s.pending.length) with
    | (.bytes [], reader) => (none, { s with reader, exhausted := true })
    | (.bytes (b :: bs), reader) =>
      fill { s with reader, pending := s.pending ++ b :: bs } length
    | (.notReady, reader) => fill { s with reader } length
    | (.failed cause, reader) => (some cause, { s with reader })
  else (none, s)
termination_by s.reader.weight
decreasing_by
  all_goals
    have := Reader.weight_read_lt s.reader (length - s.pending.length) (by simp [_h])
    simpa [_h] using this

/-- The next chunk, of `length` bytes unless the stream ends before or more are pending. -/
def nextChunk (s : Source) (length : Nat) : Except String Bytes × Source :=
  match s.fill length with
  | (some cause, s) => (.error cause, s)
  | (none, s) =>
    (.ok s.pending, { s with position := s.position + s.pending.length, pending := [] })

/-- Has the stream ended, with every byte handed out? -/
def isExhausted (s : Source) : Bool := s.exhausted && s.pending.isEmpty

end Source

end ResumableUpload
