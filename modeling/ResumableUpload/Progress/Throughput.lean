import ResumableUpload.Time.Span
import ResumableUpload.Wire.Progress

/-!
# Throughput over a sliding window

Samples of transferred bytes are kept with the time at which they came in: at most so many, and none
that is older than the window when the last one comes in. The throughput is the sum of the samples
over the time between the first and the last; it takes two samples that are apart in time.
Speed and remaining time are quotients of doubles.

Whoever follows an upload is shown a line for each part, with its throughput. The time that remains
may be too long for a span: then there is no line, and the follower breaks off.
-/

namespace ResumableUpload

/-- So many bytes at a time, in nanoseconds on a clock of any origin. -/
structure Sample where
  bytes : Nat
  time : Nat
  deriving DecidableEq, Repr

/-- The samples that are kept, oldest first, and what limits them. -/
structure Throughput where
  window : Span
  maxSamples : Nat
  samples : List Sample
  deriving DecidableEq, Repr

namespace Throughput

/-- Keeps the samples of so long, at most so many; five seconds and a hundred if nothing is said. -/
def ofLimits (window : Option Span) (maxSamples : Option Nat) : Throughput :=
  ⟨window.getD (.ofSeconds 5), maxSamples.getD 100, []⟩

/-- Adds a sample and drops those that are too old, and then the oldest of too many. -/
def add (t : Throughput) (sample : Sample) : Throughput :=
  let recent := (t.samples ++ [sample]).dropWhile fun s =>
    t.window.nanoseconds < sample.time - s.time
  { t with samples := recent.drop (recent.length - t.maxSamples) }

/-- Drops every sample. -/
def reset (t : Throughput) : Throughput := { t with samples := [] }

/-- The bytes of all samples. -/
def bytes (t : Throughput) : Nat := t.samples.foldr (fun s sum => s.bytes + sum) 0

/-- The time between the first and the last sample. -/
def elapsed (t : Throughput) : Span :=
  match t.samples.head?, t.samples.getLast? with
  | some first, some last => ⟨last.time - first.time⟩
  | _, _ => ⟨0⟩

/-- A speed, in bytes a second. -/
structure Speed where
  bytesPerSecond : Float
  deriving DecidableEq, Repr

/-- Does anything move? -/
def Speed.isPositive (s : Speed) : Bool := 0 < s.bytesPerSecond

/-- The speed over the samples; nothing moves as long as there are less than two, or no time is
between them. -/
def speed (t : Throughput) : Speed :=
  if t.samples.length < 2 then ⟨0⟩
  else if t.elapsed.nanoseconds = 0 then ⟨0⟩
  else ⟨t.bytes.toUInt64.toFloat / t.elapsed.inSeconds⟩

/-- The time that the remaining bytes take at this speed; none if nothing moves. It fails if the
quotient is not a span. -/
def remainingTime (t : Throughput) (remaining : Nat) : Except Span.SecondsFault (Option Span) :=
  let speed := t.speed.bytesPerSecond
  if speed ≤ 0 then .ok none
  else (Span.ofDouble (remaining.toUInt64.toFloat / speed)).map some

/-- The remaining time, if there is one and it is a span. -/
def remainingTime? (t : Throughput) (remaining : Nat) : Option Span :=
  (t.remainingTime remaining).toOption.join

end Throughput

/-! ## Following an upload -/

/-- Who follows an upload: the bytes that were transferred at the last part, and the throughput. -/
structure Follower where
  transferred : Nat
  throughput : Throughput
  deriving DecidableEq, Repr

namespace Follower

/-- A follower who has heard of nothing yet. -/
def fresh : Follower := ⟨0, .ofLimits none none⟩

/-- Takes note of a part: what has been transferred since the last one is a sample. -/
def note (f : Follower) (p : Progress) (now : Nat) : Follower :=
  ⟨p.transferredBytes.toNat,
    f.throughput.add ⟨p.transferredBytes.toNat - f.transferred, now⟩⟩

/-- The line for a part: the parts that are done, the share in percent, the speed in KiB a second
and the time that remains. -/
def line (f : Follower) (p : Progress) : Except Span.SecondsFault String :=
  (f.throughput.remainingTime p.remainingBytes).map fun remaining =>
    "upload progress parts=\"" ++ toString p.partsDone ++ "/" ++ toString p.totalParts ++
      "\" percent=\"" ++ Decimal.onePlace p.percentage ++
      "\" speed_kib_s=\"" ++ Decimal.onePlace (f.throughput.speed.bytesPerSecond / 1024) ++
      "\" eta=" ++ (match remaining with
        | none => "None"
        | some time => "Some(" ++ time.text ++ ")")

/-- Hears how far the upload is: what is shown, if anything, and what is remembered. -/
def hear (f : Follower) (p : Progress) (now : Nat) :
    Except Span.SecondsFault (Option String × Follower) :=
  match p.status with
  | .inProgress => ((f.note p now).line p).map fun line => (some line, f.note p now)
  | .committing => .ok (some "all parts uploaded, committing", f)
  | _ => .ok (none, f)

end Follower

end ResumableUpload
