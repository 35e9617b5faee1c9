import ResumableUpload.Bytes.Basic

/-!
# The part in flight

At most one part is on its way at a time. It stays in its slot when a transfer fails, so that the
next attempt sends the same bytes again.
-/

namespace ResumableUpload

/-- Bytes that have been read and are not known to be on the server. -/
structure InFlight where
  offset : Nat
  chunk : Bytes
  deriving DecidableEq, Repr

namespace InFlight

def size (p : InFlight) : Nat := p.chunk.length

/-- The offset of the byte after the part's last. -/
def stop (p : InFlight) : Nat := p.offset + p.size

end InFlight

/-- The place of the part in flight. -/
inductive Slot
  | idle
  | holding (part : InFlight)
  deriving DecidableEq, Repr

namespace Slot

/-- Empties the slot and answers what it held. -/
def take : Slot → Option InFlight × Slot
  | .idle => (none, .idle)
  | .holding part => (some part, .idle)

/-- The part in the slot. -/
def part? : Slot → Option InFlight
  | .idle => none
  | .holding part => some part

/-- The offset of the part in the slot. -/
def offset? (s : Slot) : Option Nat := s.part?.map InFlight.offset

def isIdle : Slot → Bool
  | .idle => true
  | .holding _ => false

end Slot

end ResumableUpload
