import ResumableUpload.Transfer.Uploader

/-!
# Attempts

One attempt to upload accounts for the parts that are left, one after the other, and commits them.
`start` goes on from the state as it is; `resume` first asks the server for the parts that it holds.
An attempt that fails leaves a state from which another one can go on, with the part whose transfer
failed in its slot. `abort` gives the upload up, for good.

Every part is reported when it is accounted for, and so are the beginning and the success of the
commit.
-/

namespace ResumableUpload.Uploader

variable {ε : Type}

/-- Reports how far the upload is. -/
def tell (u : Uploader) (session : Session) (status : Status) : Program (Transfer ε) Unit :=
  Transfer.report (u.progress session status)

/-- Counts a record as the next part, and reports it. -/
def record (u : Uploader) (session : Session) (part : Part) : Program (Transfer ε) Uploader := do
  let u := u.account part
  u.tell session .inProgress
  pure u

/-- The server's record of a part whose bytes are at hand: the one that is known, or else the answer
to sending the part. -/
def settle (u : Uploader) (part : InFlight) :
    Program (Transfer ε) (Except (TransferError ε) Part) :=
  match u.known[part.offset]? with
  | some known => pure (.ok known)
  | none => Transfer.sendPart part.chunk part.offset u.fileSize

/-- Accounts for one part. -/
def accountForNext (u : Uploader) (session : Session) :
    Program (Transfer ε) (Except (TransferError ε) Unit × Uploader) :=
  match u.next session.partSize.toNat with
  | (.error e, u) => pure (.error e, u)
  | (.ok (.recorded part), u) => do pure (.ok (), ← u.record session part)
  | (.ok (.atHand part), u) => do
    let u := u.hash part
    match ← u.settle part with
    | .ok record => pure (.ok (), ← u.record session record)
    | .error e => pure (.error e, { u with slot := .holding part })

/-- Accounts for so many parts, or up to the first that fails. -/
def accountFor (session : Session) :
    Nat → Uploader → Program (Transfer ε) (Except (TransferError ε) Unit × Uploader)
  | 0, u => pure (.ok (), u)
  | count + 1, u => do
    match ← u.accountForNext session with
    | (.error e, u) => pure (.error e, u)
    | (.ok (), u) => accountFor session count u

/-- Accounts for every part that is left, if the session fits the file. -/
def transfer (u : Uploader) (session : Session) :
    Program (Transfer ε) (Except (TransferError ε) Unit × Uploader) :=
  match Geometry.check u.fileSize session.partSize session.totalParts with
  | .error fault => pure (.error (.invalidGeometry fault), u)
  | .ok () => accountFor session (session.totalParts.toNat - u.committed.length) u

/-- Makes a file of the parts. -/
def commit (u : Uploader) (session : Session) :
    Program (Transfer ε) (Except (TransferError ε) RemoteFile) := do
  u.tell session .committing
  match ← Transfer.commit u.digest.finish u.committed with
  | .error e => pure (.error e)
  | .ok file => do
    u.tell session .committed
    pure (.ok file)

/-- Transfers what is left and commits. -/
def finish (u : Uploader) (session : Session) :
    Program (Transfer ε) (Except (TransferError ε) RemoteFile × Uploader) := do
  match ← u.transfer session with
  | (.error e, u) => pure (.error e, u)
  | (.ok (), u) => pure (← u.commit session, u)

/-- Uploads from the state as it is. -/
def start (u : Uploader) (session : Session) :
    Program (Transfer ε) (Except (TransferError ε) RemoteFile × Uploader) :=
  if u.aborted then pure (.error .aborted, u) else u.finish session

/-- Goes on from what the server lists. -/
def resume (u : Uploader) (session : Session) :
    Program (Transfer ε) (Except (TransferError ε) RemoteFile × Uploader) :=
  if u.aborted then pure (.error .aborted, u)
  else do
    match ← Transfer.listParts with
    | .error e => pure (.error e, u)
    | .ok listing => (u.adopt listing).finish session

/-- Gives the upload up and has the server discard the session. The answer is the server's. -/
def abort (u : Uploader) (session : Session) :
    Program (Transfer ε) (Except (TransferError ε) Bool × Uploader) := do
  let u := u.giveUp
  match ← Transfer.discard with
  | .error e => pure (.error e, u)
  | .ok discarded => do
    u.tell session .aborted
    pure (.ok discarded, u)

end ResumableUpload.Uploader
