import ResumableUpload.Command.Upload
import ResumableUpload.Proofs.Transfer.Course

/-!
# The course of trying again

What trying again after a failed attempt comes to, as a relation (`Policy.Persisted`): it lists the
outcomes of the attempts that were made. The relation is proved equal to the histories of
`Policy.persist`. With a first attempt before it, it is what is run for a file
(`Policy.attempts_eq_pursue`).
-/

namespace ResumableUpload.Policy

open Program (History history_pure_iff history_do_iff history_do_pure_iff)
open Transfer Uploader

variable {ε : Type}

/-- The histories of giving up. -/
theorem history_surrender_iff {session : Session} {u : Uploader} {e : TransferError ε}
    {events : List (Event ε)} {out : Except (TransferError ε) RemoteFile × Uploader} :
    History (persist.surrender session e u) events out ↔
      ∃ w, out = (.error e, w) ∧ Moved session u .abort events w := by
  have hsurrender : History (persist.surrender session e u) events out ↔
      ∃ given, History (u.abort session) events given ∧ out = (.error e, given.2) :=
    history_do_pure_iff
  rw [hsurrender]
  constructor
  · rintro ⟨⟨answer, w⟩, habort, rfl⟩
    exact ⟨w, rfl, moved_abort_iff.2 ⟨answer, habort⟩⟩
  · rintro ⟨w, rfl, hmoved⟩
    obtain ⟨answer, habort⟩ := moved_abort_iff.1 hmoved
    exact ⟨(answer, w), habort, rfl⟩

variable [Fault ε]

/-- Carrying on after the outcome of an attempt, with so many more attempts allowed, and the
outcomes of those that are made. -/
inductive Persisted (policy : Policy) (session : Session) :
    Nat → Except (TransferError ε) RemoteFile → Uploader → List (Event ε) →
      List (Except (TransferError ε) RemoteFile) →
      Except (TransferError ε) RemoteFile × Uploader → Prop
  | done {left : Nat} {file : RemoteFile} {u : Uploader} :
      Persisted policy session left (.ok file) u [] [] (.ok file, u)
  /-- No more attempts are allowed. -/
  | spent {e : TransferError ε} {u w : Uploader} {events : List (Event ε)}
      (habort : Moved session u .abort events w) :
      Persisted policy session 0 (.error e) u events [] (.error e, w)
  /-- Another attempt would be no use. -/
  | hopeless {left : Nat} {e : TransferError ε} {u w : Uploader} {events : List (Event ε)}
      (hfinal : e.isResumable = false) (habort : Moved session u .abort events w) :
      Persisted policy session (left + 1) (.error e) u events [] (.error e, w)
  | again {left : Nat} {e : TransferError ε} {u v : Uploader}
      {result : Except (TransferError ε) RemoteFile} {first rest : List (Event ε)}
      {outcomes : List (Except (TransferError ε) RemoteFile)}
      {out : Except (TransferError ε) RemoteFile × Uploader} (hresumable : e.isResumable = true)
      (hattempt : Attempted session u .resume first (result, v))
      (hrest : Persisted policy session left result v rest outcomes out) :
      Persisted policy session (left + 1) (.error e) u
        (.paused (policy.wait e (policy.maxAttempts - left)) :: (first ++ rest))
        (result :: outcomes) out

variable {policy : Policy} {session : Session} {left : Nat} {u : Uploader} {events : List (Event ε)}
  {first : Except (TransferError ε) RemoteFile}
  {out : Except (TransferError ε) RemoteFile × Uploader}

/-- The histories of trying again. -/
theorem history_persist_iff :
    History (policy.persist session left first u) events out ↔
      ∃ outcomes, Persisted policy session left first u events outcomes out := by
  induction left generalizing first u events with
  | zero =>
    cases first with
    | ok file =>
      simp only [persist, history_pure_iff]
      constructor
      · rintro ⟨rfl, rfl⟩
        exact ⟨[], .done⟩
      · rintro ⟨_, ⟨⟩⟩
        exact ⟨rfl, rfl⟩
    | error e =>
      simp only [persist, history_surrender_iff]
      constructor
      · rintro ⟨w, rfl, h⟩
        exact ⟨[], .spent h⟩
      · rintro ⟨_, h⟩
        cases h with
        | spent h => exact ⟨_, rfl, h⟩
  | succ left ih =>
    cases first with
    | ok file =>
      simp only [persist, history_pure_iff]
      constructor
      · rintro ⟨rfl, rfl⟩
        exact ⟨[], .done⟩
      · rintro ⟨_, ⟨⟩⟩
        exact ⟨rfl, rfl⟩
    | error e =>
      cases hresumable : e.isResumable with
      | false =>
        simp only [persist, hresumable, Bool.false_eq_true, if_false, history_surrender_iff]
        constructor
        · rintro ⟨w, rfl, h⟩
          exact ⟨[], .hopeless hresumable h⟩
        · rintro ⟨_, h⟩
          cases h with
          | hopeless _ h => exact ⟨_, rfl, h⟩
          | again htrue => rw [hresumable] at htrue; cases htrue
      | true =>
        simp only [persist, hresumable, if_true]
        rw [history_pause_iff]
        simp only [history_do_iff, ih]
        constructor
        · rintro ⟨_, rfl, attempt, ⟨result, v⟩, rest, rfl, hattempt, outcomes, hrest⟩
          exact ⟨result :: outcomes, .again hresumable (history_attempt_iff.1 hattempt) hrest⟩
        · rintro ⟨_, h⟩
          cases h with
          | hopeless hfalse => rw [hresumable] at hfalse; cases hfalse
          | again _ hattempt hrest =>
            exact ⟨_, rfl, _, _, _, rfl, history_attempt_iff.2 hattempt, _, hrest⟩

/-- The histories of a drive. -/
theorem history_drive_iff :
    History (policy.drive session first u) events out ↔
      ∃ outcomes, Persisted policy session policy.maxAttempts first u events outcomes out :=
  history_persist_iff

/-! ## All attempts -/

/-- A first attempt, and then as many more as the policy allows. -/
def pursue (policy : Policy) (session : Session) (kind : Attempt) (u : Uploader) :
    Program (Transfer ε) (Except (TransferError ε) RemoteFile × Uploader) := do
  let (first, v) ← u.attempt session kind
  policy.drive session first v

/-- This is what is run for a file that is to be uploaded. A session that was open is resumed. -/
theorem attempts_eq_pursue (r : UploadRequest) (settings : Settings) :
    r.attempts settings session u =
      (r.policy settings).pursue session (if r.sessionId.isSome then .resume else .start) u := by
  rw [UploadRequest.attempts, pursue]
  split
  · rfl
  · rfl

/-- The histories of a first attempt and of trying again. -/
theorem history_pursue_iff {kind : Attempt} :
    History (policy.pursue session kind u) events out ↔
      ∃ begun first v rest outcomes, events = begun ++ rest ∧
        Attempted session u kind begun (first, v) ∧
        Persisted policy session policy.maxAttempts first v rest outcomes out := by
  simp only [pursue, history_do_iff, history_attempt_iff, history_drive_iff]
  constructor
  · rintro ⟨begun, ⟨first, v⟩, rest, rfl, hbegun, outcomes, hrest⟩
    exact ⟨begun, first, v, rest, outcomes, rfl, hbegun, hrest⟩
  · rintro ⟨begun, first, v, rest, outcomes, rfl, hbegun, hrest⟩
    exact ⟨begun, (first, v), rest, rfl, hbegun, outcomes, hrest⟩

end ResumableUpload.Policy
