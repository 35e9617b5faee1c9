import ResumableUpload.Transfer.Attempt

/-!
# Trying again

After a failure that may go away by itself, an upload is resumed, so often as its policy allows. The
wait before an attempt is what the failure asks for, or else grows from attempt to attempt. When the
upload cannot be helped the session is discarded, whatever the server says to that, and the last
failure is the answer.
-/

namespace ResumableUpload

/-- How often an upload is resumed, and how long it waits before the first time. -/
structure Policy where
  maxAttempts : Nat
  backoff : Span
  deriving DecidableEq, Repr

namespace Policy

variable {ε : Type} [Fault ε]

/-- The wait before the attempt of this number, counted from one. -/
def wait (policy : Policy) (error : TransferError ε) (attempt : Nat) : Span :=
  error.retryAfter.getD (policy.backoff.times attempt)

/-- Carries on after `result`, the outcome of an attempt, with `left` more attempts allowed. -/
def persist (policy : Policy) (session : Session) :
    Nat → Except (TransferError ε) RemoteFile → Uploader →
      Program (Transfer ε) (Except (TransferError ε) RemoteFile × Uploader)
  | _, .ok file, u => pure (.ok file, u)
  | 0, .error e, u => surrender e u
  | left + 1, .error e, u =>
    if e.isResumable then do
      Transfer.pause (policy.wait e (policy.maxAttempts - left))
      let (result, u) ← u.resume session
      persist policy session left result u
    else surrender e u
where
  surrender (e : TransferError ε) (u : Uploader) :
      Program (Transfer ε) (Except (TransferError ε) RemoteFile × Uploader) := do
    let (_, u) ← u.abort session
    pure (.error e, u)

/-- Carries on after the outcome of a first attempt. -/
def drive (policy : Policy) (session : Session) (first : Except (TransferError ε) RemoteFile)
    (u : Uploader) : Program (Transfer ε) (Except (TransferError ε) RemoteFile × Uploader) :=
  policy.persist session policy.maxAttempts first u

end Policy

end ResumableUpload
