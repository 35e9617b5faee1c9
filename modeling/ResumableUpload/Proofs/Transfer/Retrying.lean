import ResumableUpload.Client.Error
import ResumableUpload.Proofs.Transfer.GivenUp
import ResumableUpload.Proofs.Transfer.Persistence

/-!
# How often an upload is resumed

Whatever the outcomes, an upload is resumed up to the first of them at which its policy stops
(`Policy.Stops`), and before each resumption it waits as the outcome before asks for, or else as the
policy has it (`Policy.Resumptions`). Then it yields the file, or is given up with the last failure
(`Policy.Ended`). These are all the histories there are (`Policy.drive_follows_policy`). The waits
of an upload that is run on request are bounded (`Policy.seconds_wait_lt`).

The outcomes are counted from zero, which is the first attempt. The recursion counts down how many
attempts are left; the two numbers have a fixed sum.
-/

namespace ResumableUpload

open Program (History Follows)
open Transfer Uploader

variable {ε : Type}

/-- Another attempt is no use but after a failure of the session or of reading. -/
theorem TransferError.isResumable_eq_false_iff {e : TransferError ε} :
    e.isResumable = false ↔ (∀ cause, e ≠ .session cause) ∧ ∀ cause, e ≠ .io cause := by
  cases e <;> simp [isResumable]

namespace Policy

variable {policy : Policy} {session : Session} {number left : Nat} {u v w : Uploader}
  {events closing : List (Event ε)} {first result : Except (TransferError ε) RemoteFile}
  {results : List (Except (TransferError ε) RemoteFile)}
  {last out : Except (TransferError ε) RemoteFile × Uploader}

/-! ## When to stop -/

/-- After so many resumptions, the policy stops at this outcome: it is a file, or no failure of the
session or of reading, or no more resumptions are allowed. -/
def Stops (policy : Policy) (number : Nat) (result : Except (TransferError ε) RemoteFile) : Prop :=
  (∃ file, result = .ok file) ∨
    (∃ e, result = .error e ∧ (∀ cause, e ≠ .session cause) ∧ ∀ cause, e ≠ .io cause) ∨
    number = policy.maxAttempts

theorem stops_error_iff {e : TransferError ε} :
    policy.Stops number (.error e) ↔ e.isResumable = false ∨ number = policy.maxAttempts := by
  rw [TransferError.isResumable_eq_false_iff]
  constructor
  · rintro (⟨_, ⟨⟩⟩ | ⟨_, ⟨⟩, hfinal⟩ | hspent)
    · exact .inl hfinal
    · exact .inr hspent
  · rintro (hfinal | hspent)
    · exact .inr (.inl ⟨e, rfl, hfinal⟩)
    · exact .inr (.inr hspent)

/-- Of these outcomes, counted from this number, the last is the first at which the policy stops. -/
def StopsAtLast (policy : Policy) (number : Nat)
    (results : List (Except (TransferError ε) RemoteFile)) : Prop :=
  ∀ i result, results[i]? = some result →
    (policy.Stops (number + i) result ↔ i + 1 = results.length)

theorem stopsAtLast_singleton :
    policy.StopsAtLast number [result] ↔ policy.Stops number result := by
  constructor
  · intro h
    exact (h 0 result rfl).2 rfl
  · intro h i result' hi
    obtain ⟨rfl, rfl⟩ : i = 0 ∧ result = result' := by simpa [List.getElem?_eq_some_iff] using hi
    exact iff_of_true h rfl

theorem stopsAtLast_cons_cons :
    policy.StopsAtLast number (first :: result :: results) ↔
      ¬policy.Stops number first ∧ policy.StopsAtLast (number + 1) (result :: results) := by
  constructor
  · intro h
    refine ⟨fun hfirst => ?_, fun i result' hi => ?_⟩
    · have := (h 0 first rfl).1 hfirst
      simp only [List.length_cons] at this
      omega
    · have := h (i + 1) result' hi
      rw [show number + 1 + i = number + (i + 1) by omega, this]
      simp only [List.length_cons]
      omega
  · rintro ⟨hfirst, h⟩ i result' hi
    cases i with
    | zero =>
      cases hi
      refine iff_of_false hfirst fun hlength => ?_
      simp only [List.length_cons] at hlength
      omega
    | succ i =>
      have := h i result' hi
      rw [show number + (i + 1) = number + 1 + i by omega, this]
      simp only [List.length_cons]
      omega

/-! ## What is done up to there, and then -/

/-- Resumptions, counted from this number, each of them after a failure. Before each there is a
wait, as long as the failure asks for, or else as many times the policy's span as the resumption has
as number. The last outcome comes with the state that it has led to. -/
inductive Resumptions [Fault ε] (policy : Policy) (session : Session) :
    Nat → Except (TransferError ε) RemoteFile → Uploader → List (Event ε) →
      List (Except (TransferError ε) RemoteFile) →
      Except (TransferError ε) RemoteFile × Uploader → Prop
  | none {number : Nat} {result : Except (TransferError ε) RemoteFile} {u : Uploader} :
      Resumptions policy session number result u [] [] (result, u)
  | more {number : Nat} {e : TransferError ε} {u v : Uploader}
      {result : Except (TransferError ε) RemoteFile} {attempt rest : List (Event ε)}
      {results : List (Except (TransferError ε) RemoteFile)}
      {last : Except (TransferError ε) RemoteFile × Uploader}
      (hattempt : History (u.resume session) attempt (result, v))
      (hrest : Resumptions policy session (number + 1) result v rest results last) :
      Resumptions policy session number (.error e) u
        (.paused (e.retryAfter.getD (policy.backoff.times number)) :: (attempt ++ rest))
        (result :: results) last

/-- A file is the answer. A failure is so too, behind an abort, whatever that is answered. -/
inductive Ended (session : Session) :
    Except (TransferError ε) RemoteFile × Uploader → List (Event ε) →
      Except (TransferError ε) RemoteFile × Uploader → Prop
  | file {file : RemoteFile} {u : Uploader} : Ended session (.ok file, u) [] (.ok file, u)
  | aborted {e : TransferError ε} {answer : Except (TransferError ε) Bool} {u w : Uploader}
      {closing : List (Event ε)} (habort : History (u.abort session) closing (answer, w))
      (hgivenUp : w.GivenUp) : Ended session (.error e, u) closing (.error e, w)

theorem ended_of_moved {e : TransferError ε} (h : Moved session u .abort closing w) :
    Ended session (.error e, u) closing (.error e, w) := by
  obtain ⟨answer, habort⟩ := moved_abort_iff.1 h
  obtain ⟨_, -, hout⟩ := history_abort_iff_farewell.1 habort
  obtain ⟨-, rfl⟩ := Prod.mk.inj hout
  exact .aborted habort (givenUp_giveUp u)

variable [Fault ε]

theorem Resumptions.question_ne_discard
    (h : policy.Resumptions session number first u events results last) :
    ∀ event ∈ events, event.question ≠ .discard := by
  induction h with
  | none => exact nofun
  | more hattempt _ ih =>
    have hattempted : Attempted session _ .resume _ _ := history_attempt_iff.1 hattempt
    exact List.forall_mem_cons.2
      ⟨nofun, List.forall_mem_append.2 ⟨hattempted.question_ne_discard, ih⟩⟩

/-- The last outcome is that of the last resumption, or the first of all if there is none. -/
theorem Resumptions.getLast?_eq
    (h : policy.Resumptions session number first u events results last) :
    (first :: results).getLast? = some last.1 := by
  induction h with
  | none => rfl
  | more _ _ ih => rw [List.getLast?_cons_cons, ih]

/-- The wait before a resumption, by its number instead of the attempts that are left after it. -/
theorem wait_eq {e : TransferError ε} (hnumber : number + (left + 1) = policy.maxAttempts) :
    policy.wait e (policy.maxAttempts - left) =
      e.retryAfter.getD (policy.backoff.times (number + 1)) := by
  rw [wait, ← hnumber, show number + (left + 1) - left = number + 1 by omega]

/-- Trying again stops where the policy does, having waited as it should. -/
theorem Persisted.resumptions (h : Persisted policy session left first u events results out)
    (hnumber : number + left = policy.maxAttempts) :
    ∃ tries last closing, events = tries ++ closing ∧
      policy.Resumptions session (number + 1) first u tries results last ∧
      policy.StopsAtLast number (first :: results) ∧ Ended session last closing out := by
  induction h generalizing number with
  | done => exact ⟨[], _, [], rfl, .none, stopsAtLast_singleton.2 (.inl ⟨_, rfl⟩), .file⟩
  | spent habort =>
    refine ⟨[], _, _, rfl, .none, stopsAtLast_singleton.2 ?_, ended_of_moved habort⟩
    exact stops_error_iff.2 (.inr hnumber)
  | hopeless hfinal habort =>
    refine ⟨[], _, _, rfl, .none, stopsAtLast_singleton.2 ?_, ended_of_moved habort⟩
    exact stops_error_iff.2 (.inl hfinal)
  | @again left e _ _ _ attempt _ _ _ hresumable hattempt _ ih =>
    obtain ⟨tries, last, closing, rfl, hresumptions, hstops, hended⟩ :=
      ih (show number + 1 + left = _ by omega)
    rw [wait_eq hnumber]
    refine ⟨_, last, closing, ?_, .more (history_attempt_iff.2 hattempt) hresumptions,
      stopsAtLast_cons_cons.2 ⟨fun hstop => ?_, hstops⟩, hended⟩
    · rw [List.cons_append, List.append_assoc]
    · rcases stops_error_iff.1 hstop with hfinal | hspent
      · rw [hresumable] at hfinal
        cases hfinal
      · omega

/-- What stops where the policy does, and has waited as it should, is a course of trying again. -/
theorem Resumptions.persisted
    (h : policy.Resumptions session (number + 1) first u events results last)
    (hstops : policy.StopsAtLast number (first :: results))
    (hended : Ended session last closing out) (hnumber : number + left = policy.maxAttempts) :
    Persisted policy session left first u (events ++ closing) results out := by
  generalize hnext : number + 1 = next at h
  induction h generalizing number left with
  | none =>
    cases hended with
    | file => exact .done
    | aborted habort =>
      have hmoved := moved_abort_iff.2 ⟨_, habort⟩
      have hstop := stops_error_iff.1 (stopsAtLast_singleton.1 hstops)
      cases left with
      | zero => exact .spent hmoved
      | succ left => exact .hopeless (hstop.resolve_right (by omega)) hmoved
  | @more _ e _ _ _ _ _ _ _ hattempt _ ih =>
    obtain ⟨hgoesOn, hstops⟩ := stopsAtLast_cons_cons.1 hstops
    have hresumable : e.isResumable = true :=
      Bool.of_not_eq_false fun hfinal => hgoesOn (stops_error_iff.2 (.inl hfinal))
    have hmore : number ≠ policy.maxAttempts := fun hspent =>
      hgoesOn (stops_error_iff.2 (.inr hspent))
    cases left with
    | zero => exact absurd hnumber hmore
    | succ left =>
      subst hnext
      have hrest := ih hstops hended (show number + 1 + left = _ by omega) rfl
      rw [List.cons_append, List.append_assoc, ← wait_eq hnumber]
      exact .again hresumable (history_attempt_iff.1 hattempt) hrest

/-- Whatever is answered, an upload that is driven comes to an end, and does so in this way: it is
resumed up to the first outcome at which the policy stops, the first attempt having the number
zero, and waits before each time as long as the failure before asks for, or else a multiple of the
policy's span. No resumption discards the session. If the last outcome is a file it is the answer;
if it is a failure the upload is aborted once, and the failure is the answer. -/
theorem drive_follows_policy (policy : Policy) (session : Session)
    (first : Except (TransferError ε) RemoteFile) (u : Uploader) :
    (∀ answer : List (Event ε) → (call : TransferCall) → call.Answer ε,
      ∃ events out, History (policy.drive session first u) events out ∧
        Follows answer [] events) ∧
    ∀ events out, History (policy.drive session first u) events out ↔
      ∃ results tries last closing, events = tries ++ closing ∧
        policy.Resumptions session 1 first u tries results last ∧
        (first :: results).getLast? = some last.1 ∧
        (∀ event ∈ tries, event.question ≠ .discard) ∧
        (∀ k result, (first :: results)[k]? = some result →
          (policy.Stops k result ↔ k = results.length)) ∧
        Ended session last closing out := by
  have hstops : ∀ results, policy.StopsAtLast 0 (first :: results) ↔
      ∀ k result, (first :: results)[k]? = some result →
        (policy.Stops k result ↔ k = results.length) := by
    intro results
    simp only [StopsAtLast, Nat.zero_add, List.length_cons, Nat.add_right_cancel_iff]
  refine ⟨fun answer => Program.exists_history answer [] _, fun events out => ?_⟩
  rw [history_drive_iff]
  constructor
  · rintro ⟨results, h⟩
    obtain ⟨tries, last, closing, hevents, hresumptions, hlast, hended⟩ :=
      h.resumptions (Nat.zero_add _)
    exact ⟨results, tries, last, closing, hevents, hresumptions, hresumptions.getLast?_eq,
      hresumptions.question_ne_discard, (hstops results).1 hlast, hended⟩
  · rintro ⟨results, tries, last, closing, rfl, hresumptions, -, -, hlast, hended⟩
    exact ⟨results, hresumptions.persisted ((hstops results).2 hlast) hended (Nat.zero_add _)⟩

/-- A commit is pending, with a hint of seven seconds. The connection is lost in both resumptions
that are allowed, and in the abort too. -/
theorem gives_up_after_two_resumptions :
    let policy : Policy := ⟨2, .ofSeconds 2⟩
    let session : Session := ⟨"one", 1, 1⟩
    let u : Uploader := ofReader (.ofBytes [7]) 1
    let pending : TransferError ClientError := .session (.commitPending (.ofSeconds 7))
    let lost : TransferError ClientError := .session (.http .request)
    let events : List (Event ClientError) :=
      [.paused (.ofSeconds 7), .listed (.error lost), .paused (.ofSeconds 4),
        .listed (.error lost), .discarded (.error lost)]
    History (policy.drive session (.error pending) u) events (.error lost, u.giveUp) := by
  intro policy session u pending lost events
  have hlisting : History (u.attempt session .resume) [Event.listed (.error lost)]
      (.error lost, u) := history_attempt_iff.2 (.unlisted rfl)
  have habort : History (u.abort session) [Event.discarded (.error lost)] (.error lost, u.giveUp) :=
    history_abort_iff_farewell.2 ⟨.error lost, rfl, rfl⟩
  obtain ⟨-, hcourse⟩ := drive_follows_policy policy session (.error pending) u
  refine (hcourse events _).2 ⟨[.error lost, .error lost], _, _, _, ?_,
    .more hlisting (.more hlisting .none), rfl, ?_, ?_, .aborted habort (givenUp_giveUp u)⟩
  · have hwait : (lost.retryAfter.getD (policy.backoff.times 2)) = .ofSeconds 4 := by decide
    rw [hwait]
    rfl
  · simp
  · rintro (_ | _ | _ | k) result ⟨⟩ <;>
      simp [stops_error_iff, policy, pending, lost, TransferError.isResumable]

/-- For a file that is uploaded on request, the policy asks for no wait of `2 ^ 64` seconds. -/
theorem seconds_wait_lt (r : UploadRequest) (settings : Settings)
    (hnumber : number ≤ (r.policy settings).maxAttempts) :
    ((r.policy settings).backoff.times number).seconds < UInt64.size := by
  have hattempts := (r.resumeAttempts.getD settings.maxResumeAttempts).toNat_lt
  simp only [UploadRequest.policy] at hnumber
  simp only [UploadRequest.policy, Span.ofSeconds, Span.times, Span.seconds, UInt64.size]
  omega

end Policy

end ResumableUpload
