import ResumableUpload.Wire.Part

/-!
# Reconciling with the server's list of parts

After a failure with a part in flight, the parts that count as committed are the longest run of
listed parts that starts at offset 0, has no gap, and begins each part at or below the offset of the
part in flight. Of parts with one offset the first listed counts. Whether the part in flight has
landed is a question of its own: is its offset listed anywhere? Without a part in flight nothing
counts as committed, and the upload walks its stream again.
-/

namespace ResumableUpload

/-- What the list of parts says about an upload. -/
structure Reconciliation where
  committed : List Part
  landed : Bool
  deriving DecidableEq, Repr

namespace Reconciliation

/-- In the order of offsets; parts with one offset stay in the order in which they are listed. -/
def byOffset (listing : List Part) : List Part :=
  listing.mergeSort fun a b => a.offset ≤ b.offset

/-- Of neighbours with one offset, the first. -/
def firstOfEach : List Part → List Part
  | [] => []
  | p :: rest =>
    match firstOfEach rest with
    | [] => [p]
    | q :: tail => if q.offset = p.offset then p :: tail else p :: q :: tail

/-- The parts at the front that follow on from `expected` without a gap and begin at or below
`limit`. -/
def run (limit expected : Nat) : List Part → List Part
  | [] => []
  | p :: rest =>
    if p.offset.toNat ≤ limit ∧ p.offset.toNat = expected then p :: run limit p.stop rest else []

end Reconciliation

/-- What a list of parts says, given the offset of the part in flight. -/
def reconcile (inFlight : Option Nat) (listing : List Part) : Reconciliation :=
  match inFlight with
  | none => ⟨[], false⟩
  | some limit =>
    { committed :=
        Reconciliation.run limit 0 (Reconciliation.firstOfEach (Reconciliation.byOffset listing))
      landed := listing.any fun p => p.offset.toNat = limit }

end ResumableUpload
