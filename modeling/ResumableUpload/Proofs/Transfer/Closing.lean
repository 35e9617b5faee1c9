import ResumableUpload.Proofs.Transfer.Kept
import ResumableUpload.Proofs.Transfer.Persistence

/-!
# How trying again ends

Attempts are made until one of them yields a file, or until no other would be made. In the first
case the last thing that the session is asked for is the commit that it grants with the file; in
the other it is to be discarded, and it has not been asked for that before (`Policy.Closed`). An
attempt commits once at most, so there are no more commits than attempts
(`Policy.Persisted.closed`). Nothing is assumed of the session.
-/

namespace ResumableUpload

/-- Is this the call that makes a file of the parts? -/
def TransferCall.isCommit : TransferCall → Bool
  | .commit _ _ => true
  | _ => false

variable {ε : Type}

/-- How often the session is asked to commit. -/
def commits (events : List (Transfer.Event ε)) : Nat := events.countP (·.question.isCommit)

theorem commits_append (before after : List (Transfer.Event ε)) :
    commits (before ++ after) = commits before + commits after :=
  List.countP_append

namespace Uploader

variable {session : Session} {u w : Uploader} {events : List (Transfer.Event ε)}

/-- The loop does not commit. -/
theorem Turns.commits_eq {count : Nat} {out : Except (TransferError ε) Unit × Uploader}
    (h : Turns session count u events out) : commits events = 0 := by
  rw [commits, List.countP_eq_zero]
  intro event hmem hcommit
  have hloop := h.question_isOfLoop event hmem
  revert hcommit hloop
  cases event.question <;> exact nofun

/-- After the loop comes one commit at most. -/
theorem Finish.commits_le {out : Except (TransferError ε) RemoteFile × Uploader}
    (h : Finish session u events out) : commits events ≤ 1 := by
  cases h with
  | misfit => exact Nat.zero_le 1
  | stopped _ hturns =>
    rw [hturns.commits_eq]
    exact Nat.zero_le 1
  | refused _ hturns =>
    rw [commits_append, hturns.commits_eq]
    exact Nat.le_refl 1
  | committed _ hturns =>
    rw [commits_append, hturns.commits_eq]
    exact Nat.le_refl 1

/-- An attempt commits once at most. -/
theorem Attempted.commits_le {kind : Attempt}
    {out : Except (TransferError ε) RemoteFile × Uploader}
    (h : Attempted session u kind events out) : commits events ≤ 1 := by
  cases h with
  | aborted => exact Nat.zero_le 1
  | start _ hfinish => exact hfinish.commits_le
  | unlisted => exact Nat.zero_le 1
  | resume _ hfinish => exact hfinish.commits_le

/-- The loop and the commit yield a file only if the session has granted the commit with it. -/
theorem Finish.granted {file : RemoteFile} (h : Finish session u events (.ok file, w)) :
    ∃ before digest parts after, events = before ++ .committed digest parts (.ok file) :: after ∧
      ∀ event ∈ after, event.question.isOfSession = false := by
  cases h with
  | @committed events _ _ _ hturns =>
    exact ⟨events ++ [.reported (w.progress session .committing)], _, _, _,
      by rw [List.append_assoc]; rfl, List.forall_mem_singleton.2 rfl⟩

/-- So does an attempt. -/
theorem Attempted.granted {kind : Attempt} {file : RemoteFile}
    (h : Attempted session u kind events (.ok file, w)) :
    ∃ before digest parts after, events = before ++ .committed digest parts (.ok file) :: after ∧
      ∀ event ∈ after, event.question.isOfSession = false := by
  cases h with
  | start _ hfinish => exact hfinish.granted
  | resume _ hfinish =>
    obtain ⟨before, digest, parts, after, rfl, hafter⟩ := hfinish.granted
    exact ⟨_ :: before, digest, parts, after, rfl, hafter⟩

end Uploader

namespace Policy

open Transfer Uploader

variable {session : Session} {events front : List (Event ε)}
  {result : Except (TransferError ε) RemoteFile}

/-- The session is done with: the last that it is asked for is a commit, which it grants with the
file, or to be discarded. Before that nobody asks to discard it. -/
inductive Closed : List (Event ε) → Except (TransferError ε) RemoteFile → Prop
  | committed {before after : List (Event ε)} {digest : Sha1.Digest} {parts : List Part}
      {file : RemoteFile} (hbefore : ∀ event ∈ before, event.question ≠ .discard)
      (hafter : ∀ event ∈ after, event.question.isOfSession = false) :
      Closed (before ++ .committed digest parts (.ok file) :: after) (.ok file)
  | discarded {before after : List (Event ε)} {answer : Except (TransferError ε) Bool}
      {e : TransferError ε} (hbefore : ∀ event ∈ before, event.question ≠ .discard)
      (hafter : ∀ event ∈ after, event.question.isOfSession = false) :
      Closed (before ++ .discarded answer :: after) (.error e)

/-- What does not discard the session may come before. -/
theorem Closed.append (h : Closed events result)
    (hfront : ∀ event ∈ front, event.question ≠ .discard) : Closed (front ++ events) result := by
  cases h with
  | committed hbefore hafter =>
    rw [← List.append_assoc]
    exact .committed (List.forall_mem_append.2 ⟨hfront, hbefore⟩) hafter
  | discarded hbefore hafter =>
    rw [← List.append_assoc]
    exact .discarded (List.forall_mem_append.2 ⟨hfront, hbefore⟩) hafter

/-- Giving up after an attempt discards the session, and does not commit again. -/
theorem closed_of_abort {u v w : Uploader} {kind : Attempt} {begun : List (Event ε)}
    {e : TransferError ε} (hbegun : Attempted session u kind begun (.error e, v))
    (habort : Moved session v .abort events w) :
    Closed (begun ++ events) (.error e) ∧ commits (begun ++ events) ≤ 1 := by
  have hend : Closed events (.error e) ∧ commits events = 0 := by
    cases habort with
    | abortFailed => exact ⟨.discarded (List.forall_mem_nil _) (List.forall_mem_nil _), rfl⟩
    | aborted => exact ⟨.discarded (List.forall_mem_nil _) (List.forall_mem_singleton.2 rfl), rfl⟩
  rw [commits_append, hend.2]
  exact ⟨hend.1.append hbegun.question_ne_discard, hbegun.commits_le⟩

variable [Fault ε] {policy : Policy} {left : Nat} {u v : Uploader} {kind : Attempt}
  {first : Except (TransferError ε) RemoteFile} {begun rest : List (Event ε)}
  {outcomes : List (Except (TransferError ε) RemoteFile)}
  {out : Except (TransferError ε) RemoteFile × Uploader}

/-- An attempt and what comes after it leave the session done with. The result is the outcome of the
last attempt, and no attempt makes two commits. -/
theorem Persisted.closed (hbegun : Attempted session u kind begun (first, v))
    (hrest : Persisted policy session left first v rest outcomes out) :
    Closed (begun ++ rest) out.1 ∧ (first :: outcomes).getLast? = some out.1 ∧
      commits (begun ++ rest) ≤ 1 + left := by
  induction hrest generalizing u kind begun with
  | done =>
    obtain ⟨before, digest, parts, after, rfl, hafter⟩ := hbegun.granted
    have hdiscard := hbegun.question_ne_discard
    rw [List.append_nil]
    refine ⟨.committed (fun event hmem => hdiscard event (List.mem_append_left _ hmem)) hafter,
      rfl, ?_⟩
    exact Nat.le_add_right_of_le hbegun.commits_le
  | spent habort =>
    obtain ⟨hclosed, hcommits⟩ := closed_of_abort hbegun habort
    exact ⟨hclosed, rfl, hcommits⟩
  | hopeless _ habort =>
    obtain ⟨hclosed, hcommits⟩ := closed_of_abort hbegun habort
    exact ⟨hclosed, rfl, Nat.le_add_right_of_le hcommits⟩
  | @again left e _ _ _ later rest _ _ _ hattempt _ ih =>
    generalize policy.wait e (policy.maxAttempts - left) = span
    obtain ⟨hclosed, hlast, hcommits⟩ := ih hattempt
    have hpause : ∀ event ∈ [(.paused span : Event ε)], event.question ≠ .discard :=
      List.forall_mem_singleton.2 nofun
    have hnone : commits [(.paused span : Event ε)] = 0 := rfl
    rw [← List.singleton_append]
    refine ⟨(hclosed.append hpause).append hbegun.question_ne_discard, ?_, ?_⟩
    · rw [List.getLast?_cons_cons, hlast]
    · have hfirst := hbegun.commits_le
      rw [commits_append, commits_append, hnone]
      omega

end Policy

end ResumableUpload
