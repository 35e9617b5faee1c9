import ResumableUpload.Bytes.Basic

/-!
# Readers

A reader is what a stream of content has in store: a script of deliveries. A read offers a buffer
of some length and is answered with bytes (none at the end of data), with "not ready", or with a
failure. It returns at most what the buffer takes, at most what the delivery has left, and at most
a burst. When the script is used up every read finds the end of data.

A read that returns bytes or "not ready" makes the script weigh less (`weight_deliver_lt`), which is
why assembling a chunk ends.
-/

namespace ResumableUpload

/-- One delivery of a stream. `burst` limits the bytes of a single read. -/
inductive Delivery
  | data (bytes : Bytes) (burst : Option Nat)
  | stall
  | failure (cause : String)
  | endOfData
  deriving DecidableEq, Repr

/-- The answer to one read. -/
inductive ReadOutcome
  | bytes (bytes : Bytes)
  | notReady
  | failed (cause : String)
  deriving DecidableEq, Repr

namespace Delivery

/-- Answers a read of a buffer of `length` bytes; the rest of the script stays. -/
def deliver (length : Nat) : List Delivery → ReadOutcome × List Delivery
  | [] => (.bytes [], [])
  | .data bytes burst :: rest =>
    if bytes.isEmpty then deliver length rest
    else
      let n := min length (burst.getD length)
      (.bytes (bytes.take n), .data (bytes.drop n) burst :: rest)
  | .stall :: rest => (.notReady, rest)
  | .failure cause :: rest => (.failed cause, rest)
  | .endOfData :: rest => (.bytes [], rest)

/-- One for each delivery and one for each byte. -/
def weight : List Delivery → Nat
  | [] => 0
  | .data bytes _ :: rest => bytes.length + 1 + weight rest
  | _ :: rest => 1 + weight rest

/-- The bytes that the script still holds. -/
def unread : List Delivery → Nat
  | [] => 0
  | .data bytes _ :: rest => bytes.length + unread rest
  | _ :: rest => unread rest

/-- A read that returns no bytes at the end of data leaves a lighter script. -/
theorem weight_deliver_lt (length : Nat) (script : List Delivery)
    (h : (deliver length script).1 ≠ .bytes []) :
    weight (deliver length script).2 < weight script := by
  fun_induction deliver length script with
  | case1 => exact absurd rfl h
  | case2 bytes burst rest _ ih =>
    have := ih h
    simp only [weight]; omega
  | case3 bytes burst rest hb n =>
    simp only [weight, List.length_drop]
    have hn : n ≠ 0 := by
      intro hn
      apply h
      simp [hn]
    have : bytes.length ≠ 0 := by simpa using hb
    omega
  | case4 rest => simp only [weight]; omega
  | case5 cause rest => simp only [weight]; omega
  | case6 => exact absurd rfl h

end Delivery

/-- A stream of content, with the lengths of the buffers that it was offered, the last one first. -/
structure Reader where
  script : List Delivery
  requests : List Nat
  deriving DecidableEq, Repr

namespace Reader

/-- A stream that has not been read from. -/
def ofScript (script : List Delivery) : Reader := ⟨script, []⟩

/-- A stream that has all its bytes at hand. -/
def ofBytes (bytes : Bytes) : Reader := ofScript [.data bytes none]

/-- One read. -/
def read (r : Reader) (length : Nat) : ReadOutcome × Reader :=
  let (outcome, script) := Delivery.deliver length r.script
  (outcome, ⟨script, length :: r.requests⟩)

/-- What bounds the number of reads until the end of data. -/
def weight (r : Reader) : Nat := Delivery.weight r.script

/-- The bytes that have not been read. -/
def unread (r : Reader) : Nat := Delivery.unread r.script

theorem weight_read_lt (r : Reader) (length : Nat) (h : (r.read length).1 ≠ .bytes []) :
    (r.read length).2.weight < r.weight :=
  Delivery.weight_deliver_lt length r.script h

end Reader

end ResumableUpload
