import ResumableUpload.Proofs.Program.Histories
import ResumableUpload.Transfer.Policy

/-!
# The course of an upload

What can happen when an upload is started, resumed or given up, as relations between the state
before, the questions with their answers, and the outcome. `Turn` is one turn of the loop that
accounts for the parts, `Turns` is the loop, `Finish` is the loop and the commit, `Attempted` is a
whole attempt, and `Played` is any sequence of attempts and aborts.

Each relation is proved equal to the histories of its program. So what is shown of every `Played`
by induction is shown of every behaviour of the session, the followers and the stream.
-/

namespace ResumableUpload

/-- A question of an upload, with its answer. -/
abbrev Transfer.Event (ε : Type) := Program.Event (Transfer ε)

namespace Transfer.Event

variable {ε : Type}

abbrev listed (answer : Except (TransferError ε) (List Part)) : Event ε := ⟨.listParts, answer⟩

abbrev sent (bytes : Bytes) (offset : Nat) (fileSize : UInt64)
    (answer : Except (TransferError ε) Part) : Event ε :=
  ⟨.sendPart bytes offset fileSize, answer⟩

abbrev committed (digest : Sha1.Digest) (parts : List Part)
    (answer : Except (TransferError ε) RemoteFile) : Event ε :=
  ⟨.commit digest parts, answer⟩

abbrev discarded (answer : Except (TransferError ε) Bool) : Event ε := ⟨.discard, answer⟩

abbrev reported (progress : Progress) : Event ε := ⟨.report progress, ()⟩

abbrev paused (span : Span) : Event ε := ⟨.pause span, ()⟩

theorem committed_inj {digest digest' : Sha1.Digest} {parts parts' : List Part}
    {answer answer' : Except (TransferError ε) RemoteFile}
    (h : committed digest parts answer = committed digest' parts' answer') :
    digest = digest' ∧ parts = parts' ∧ answer = answer' := by
  cases h
  exact ⟨rfl, rfl, rfl⟩

end Transfer.Event

namespace Transfer

open Program (History history_put_do_iff)

variable {ε α : Type} {events : List (Event ε)} {result : α}

/-! ## Histories that begin with a call -/

theorem history_listParts_iff {f : Except (TransferError ε) (List Part) → Program (Transfer ε) α} :
    History (listParts >>= f) events result ↔
      ∃ answer rest, events = .listed answer :: rest ∧ History (f answer) rest result :=
  history_put_do_iff

theorem history_sendPart_iff {bytes : Bytes} {offset : Nat} {fileSize : UInt64}
    {f : Except (TransferError ε) Part → Program (Transfer ε) α} :
    History (sendPart bytes offset fileSize >>= f) events result ↔
      ∃ answer rest, events = .sent bytes offset fileSize answer :: rest ∧
        History (f answer) rest result :=
  history_put_do_iff

theorem history_commit_iff {digest : Sha1.Digest} {parts : List Part}
    {f : Except (TransferError ε) RemoteFile → Program (Transfer ε) α} :
    History (commit digest parts >>= f) events result ↔
      ∃ answer rest, events = .committed digest parts answer :: rest ∧
        History (f answer) rest result :=
  history_put_do_iff

theorem history_discard_iff {f : Except (TransferError ε) Bool → Program (Transfer ε) α} :
    History (discard >>= f) events result ↔
      ∃ answer rest, events = .discarded answer :: rest ∧ History (f answer) rest result :=
  history_put_do_iff

theorem history_report_iff {progress : Progress} {f : Unit → Program (Transfer ε) α} :
    History (report progress >>= f) events result ↔
      ∃ rest, events = .reported progress :: rest ∧ History (f ()) rest result := by
  constructor
  · intro h
    obtain ⟨answer, rest, rfl, hrest⟩ := history_put_do_iff.1 h
    exact ⟨rest, rfl, hrest⟩
  · rintro ⟨rest, rfl, hrest⟩
    exact history_put_do_iff.2 ⟨(), rest, rfl, hrest⟩

theorem history_pause_iff {span : Span} {f : Unit → Program (Transfer ε) α} :
    History (pause span >>= f) events result ↔
      ∃ rest, events = .paused span :: rest ∧ History (f ()) rest result := by
  constructor
  · intro h
    obtain ⟨answer, rest, rfl, hrest⟩ := history_put_do_iff.1 h
    exact ⟨rest, rfl, hrest⟩
  · rintro ⟨rest, rfl, hrest⟩
    exact history_put_do_iff.2 ⟨(), rest, rfl, hrest⟩

end Transfer

/-- The two ways to attempt an upload. -/
inductive Attempt
  | start
  | resume
  deriving DecidableEq, Repr

/-- What the owner of an upload can do with it. -/
inductive Move
  | attempt (kind : Attempt)
  | abort
  deriving DecidableEq, Repr

namespace Uploader

open Program (History history_pure_iff history_do_iff history_do_pure_iff)
open Transfer

variable {ε : Type}

/-- An attempt of either kind. -/
def attempt (u : Uploader) (session : Session) :
    Attempt → Program (Transfer ε) (Except (TransferError ε) RemoteFile × Uploader)
  | .start => u.start session
  | .resume => u.resume session

/-- One move; what it answers is dropped. -/
def move (u : Uploader) (session : Session) : Move → Program (Transfer ε) Uploader
  | .attempt kind => do return (← u.attempt session kind).2
  | .abort => do return (← u.abort session).2

/-- One move after the other. -/
def play (session : Session) : List Move → Uploader → Program (Transfer ε) Uploader
  | [], u => pure u
  | m :: moves, u => do play session moves (← u.move session m)

variable {session : Session} {u : Uploader} {events : List (Event ε)}

/-! ## One turn of the loop -/

/-- The report that a part has been accounted for. -/
def accounted (u : Uploader) (session : Session) : Event ε :=
  .reported (u.progress session .inProgress)

/-- One turn of the loop. -/
inductive Turn (session : Session) (u : Uploader) :
    List (Event ε) → Except (TransferError ε) Unit × Uploader → Prop
  /-- Nothing can account for the next part. -/
  | failed {e : TransferError ε} {w : Uploader}
      (hnext : u.next session.partSize.toNat = (.error e, w)) : Turn session u [] (.error e, w)
  /-- The part was read before, and its record is known. -/
  | recalled {record : Part} {w : Uploader}
      (hnext : u.next (ε := ε) session.partSize.toNat = (.ok (.recorded record), w)) :
      Turn session u [(w.account record).accounted session] (.ok (), w.account record)
  /-- The part is at hand, and its record is known. -/
  | reused {part : InFlight} {record : Part} {w : Uploader}
      (hnext : u.next (ε := ε) session.partSize.toNat = (.ok (.atHand part), w))
      (hknown : (w.hash part).known[part.offset]? = some record) :
      Turn session u [((w.hash part).account record).accounted session]
        (.ok (), (w.hash part).account record)
  /-- The part is at hand, and the session takes it. -/
  | stored {part : InFlight} {record : Part} {w : Uploader}
      (hnext : u.next (ε := ε) session.partSize.toNat = (.ok (.atHand part), w))
      (hknown : (w.hash part).known[part.offset]? = none) :
      Turn session u
        [.sent part.chunk part.offset (w.hash part).fileSize (.ok record),
          ((w.hash part).account record).accounted session]
        (.ok (), (w.hash part).account record)
  /-- The part is at hand, and sending it fails. -/
  | held {part : InFlight} {e : TransferError ε} {w : Uploader}
      (hnext : u.next (ε := ε) session.partSize.toNat = (.ok (.atHand part), w))
      (hknown : (w.hash part).known[part.offset]? = none) :
      Turn session u [.sent part.chunk part.offset (w.hash part).fileSize (.error e)]
        (.error e, { w.hash part with slot := .holding part })

/-- Counting a record makes one report. -/
theorem history_record_iff {part : Part} {w : Uploader} :
    History (u.record session part) events w ↔
      events = [(u.account part).accounted session] ∧ w = u.account part := by
  simp only [record, tell, history_report_iff, history_pure_iff]
  constructor
  · rintro ⟨rest, rfl, rfl, rfl⟩
    exact ⟨rfl, rfl⟩
  · rintro ⟨rfl, rfl⟩
    exact ⟨[], rfl, rfl, rfl⟩

/-- Counting a record ends a turn well. -/
theorem history_record_ok_iff {part : Part} {out : Except (TransferError ε) Unit × Uploader} :
    History (do return (.ok (), ← u.record session part)) events out ↔
      events = [(u.account part).accounted session] ∧ out = (.ok (), u.account part) := by
  simp only [history_do_iff, history_record_iff, history_pure_iff]
  constructor
  · rintro ⟨_, _, _, rfl, ⟨rfl, rfl⟩, rfl, rfl⟩
    exact ⟨rfl, rfl⟩
  · rintro ⟨rfl, rfl⟩
    exact ⟨_, _, [], rfl, ⟨rfl, rfl⟩, rfl, rfl⟩

/-- The histories of a turn. -/
theorem history_accountForNext_iff {out : Except (TransferError ε) Unit × Uploader} :
    History (u.accountForNext session) events out ↔ Turn session u events out := by
  constructor
  · intro h
    rcases hnext : u.next (ε := ε) session.partSize.toNat with ⟨e | ⟨record⟩ | ⟨part⟩, w⟩
    · simp only [accountForNext, hnext, history_pure_iff] at h
      obtain ⟨rfl, rfl⟩ := h
      exact .failed hnext
    · simp only [accountForNext, hnext, history_record_ok_iff] at h
      obtain ⟨rfl, rfl⟩ := h
      exact .recalled hnext
    · simp only [accountForNext, hnext, settle] at h
      cases hknown : (w.hash part).known[part.offset]? with
      | some record =>
        simp only [hknown, pure_bind, history_record_ok_iff] at h
        obtain ⟨rfl, rfl⟩ := h
        exact .reused hnext hknown
      | none =>
        simp only [hknown, history_sendPart_iff] at h
        obtain ⟨answer, rest, rfl, h⟩ := h
        cases answer with
        | ok record =>
          simp only [history_record_ok_iff] at h
          obtain ⟨rfl, rfl⟩ := h
          exact .stored hnext hknown
        | error e =>
          simp only [history_pure_iff] at h
          obtain ⟨rfl, rfl⟩ := h
          exact .held hnext hknown
  · intro h
    cases h with
    | failed hnext =>
      simp only [accountForNext, hnext, history_pure_iff, and_self]
    | recalled hnext =>
      simp only [accountForNext, hnext, history_record_ok_iff, and_self]
    | reused hnext hknown =>
      simp only [accountForNext, hnext, settle, hknown, pure_bind, history_record_ok_iff, and_self]
    | stored hnext hknown =>
      simp only [accountForNext, hnext, settle, hknown, history_sendPart_iff]
      exact ⟨.ok _, _, rfl, history_record_ok_iff.2 ⟨rfl, rfl⟩⟩
    | held hnext hknown =>
      simp only [accountForNext, hnext, settle, hknown, history_sendPart_iff]
      exact ⟨.error _, _, rfl, history_pure_iff.2 ⟨rfl, rfl⟩⟩

/-! ## The loop -/

/-- So many turns, or up to the first that fails. -/
inductive Turns (session : Session) :
    Nat → Uploader → List (Event ε) → Except (TransferError ε) Unit × Uploader → Prop
  | done (u : Uploader) : Turns session 0 u [] (.ok (), u)
  | failed {count : Nat} {u w : Uploader} {events : List (Event ε)} {e : TransferError ε}
      (hturn : Turn session u events (.error e, w)) :
      Turns session (count + 1) u events (.error e, w)
  | more {count : Nat} {u v : Uploader} {first rest : List (Event ε)}
      {out : Except (TransferError ε) Unit × Uploader}
      (hturn : Turn session u first (.ok (), v)) (hrest : Turns session count v rest out) :
      Turns session (count + 1) u (first ++ rest) out

/-- With no record missing, the loop is over before it begins. -/
theorem Turns.of_complete (h : session.totalParts.toNat ≤ u.committed.length) :
    Turns (ε := ε) session (session.totalParts.toNat - u.committed.length) u [] (.ok (), u) := by
  rw [Nat.sub_eq_zero_of_le h]
  exact .done u

/-- The histories of the loop. -/
theorem history_accountFor_iff {count : Nat} {out : Except (TransferError ε) Unit × Uploader} :
    History (accountFor session count u) events out ↔ Turns session count u events out := by
  induction count generalizing u events with
  | zero =>
    simp only [accountFor, history_pure_iff]
    constructor
    · rintro ⟨rfl, rfl⟩
      exact .done u
    · intro h
      cases h
      exact ⟨rfl, rfl⟩
  | succ count ih =>
    simp only [accountFor, history_do_iff, history_accountForNext_iff]
    constructor
    · rintro ⟨first, ⟨⟨⟩ | ⟨⟩, v⟩, rest, rfl, hturn, hrest⟩
      · obtain ⟨rfl, rfl⟩ := history_pure_iff.1 hrest
        rw [List.append_nil]
        exact .failed hturn
      · exact .more hturn (ih.1 hrest)
    · intro h
      cases h with
      | failed hturn =>
        exact ⟨_, _, [], (List.append_nil _).symm, hturn, history_pure_iff.2 ⟨rfl, rfl⟩⟩
      | more hturn hrest => exact ⟨_, _, _, rfl, hturn, ih.2 hrest⟩

/-! ## The loop and the commit -/

/-- What the loop begins with, up to a committed file or an error. -/
inductive Finish (session : Session) (u : Uploader) :
    List (Event ε) → Except (TransferError ε) RemoteFile × Uploader → Prop
  /-- The session does not fit the file. -/
  | misfit {fault : GeometryFault}
      (hcheck : Geometry.check u.fileSize session.partSize session.totalParts = .error fault) :
      Finish session u [] (.error (.invalidGeometry fault), u)
  /-- A part could not be accounted for. -/
  | stopped {events : List (Event ε)} {e : TransferError ε} {w : Uploader}
      (hcheck : Geometry.check u.fileSize session.partSize session.totalParts = .ok ())
      (hturns : Turns session (session.totalParts.toNat - u.committed.length) u events
        (.error e, w)) :
      Finish session u events (.error e, w)
  /-- Every part is accounted for, and the session refuses to commit. -/
  | refused {events : List (Event ε)} {e : TransferError ε} {w : Uploader}
      (hcheck : Geometry.check u.fileSize session.partSize session.totalParts = .ok ())
      (hturns : Turns session (session.totalParts.toNat - u.committed.length) u events
        (.ok (), w)) :
      Finish session u
        (events ++ [.reported (w.progress session .committing),
          .committed w.digest.finish w.committed (.error e)])
        (.error e, w)
  /-- Every part is accounted for, and the session commits. -/
  | committed {events : List (Event ε)} {file : RemoteFile} {w : Uploader}
      (hcheck : Geometry.check u.fileSize session.partSize session.totalParts = .ok ())
      (hturns : Turns session (session.totalParts.toNat - u.committed.length) u events
        (.ok (), w)) :
      Finish session u
        (events ++ [.reported (w.progress session .committing),
          .committed w.digest.finish w.committed (.ok file),
          .reported (w.progress session .committed)])
        (.ok file, w)

/-- The histories of a commit. -/
theorem history_commit_result_iff {result : Except (TransferError ε) RemoteFile} :
    History (u.commit session) events result ↔
      (∃ e, result = .error e ∧ events = [.reported (u.progress session .committing),
        .committed u.digest.finish u.committed (.error e)]) ∨
      ∃ file, result = .ok file ∧ events = [.reported (u.progress session .committing),
        .committed u.digest.finish u.committed (.ok file),
        .reported (u.progress session .committed)] := by
  simp only [Uploader.commit, tell, history_report_iff, history_commit_iff]
  constructor
  · rintro ⟨_, rfl, answer, rest, rfl, h⟩
    cases answer with
    | error e =>
      obtain ⟨rfl, rfl⟩ := history_pure_iff.1 h
      exact .inl ⟨e, rfl, rfl⟩
    | ok file =>
      obtain ⟨_, rfl, hdone⟩ := history_report_iff.1 h
      obtain ⟨rfl, rfl⟩ := history_pure_iff.1 hdone
      exact .inr ⟨file, rfl, rfl⟩
  · rintro (⟨e, rfl, rfl⟩ | ⟨file, rfl, rfl⟩)
    · exact ⟨_, rfl, .error e, [], rfl, history_pure_iff.2 ⟨rfl, rfl⟩⟩
    · exact ⟨_, rfl, .ok file, _, rfl,
        history_report_iff.2 ⟨[], rfl, history_pure_iff.2 ⟨rfl, rfl⟩⟩⟩

/-- The histories of transferring what is left. -/
theorem history_transfer_iff {out : Except (TransferError ε) Unit × Uploader} :
    History (u.transfer session) events out ↔
      (∃ fault, Geometry.check u.fileSize session.partSize session.totalParts = .error fault ∧
        events = [] ∧ out = (.error (.invalidGeometry fault), u)) ∨
      Geometry.check u.fileSize session.partSize session.totalParts = .ok () ∧
        Turns session (session.totalParts.toNat - u.committed.length) u events out := by
  rw [transfer]
  cases hcheck : Geometry.check u.fileSize session.partSize session.totalParts with
  | error fault => simp [history_pure_iff]
  | ok => simp [history_accountFor_iff]

/-- The histories of the loop and the commit. -/
theorem history_finish_iff {out : Except (TransferError ε) RemoteFile × Uploader} :
    History (u.finish session) events out ↔ Finish session u events out := by
  simp only [finish, history_do_iff, history_transfer_iff]
  constructor
  · rintro ⟨first, ⟨result, w⟩, rest, rfl, ⟨fault, hcheck, rfl, ⟨⟩⟩ | ⟨hcheck, hturns⟩, h⟩
    · obtain ⟨rfl, rfl⟩ := history_pure_iff.1 h
      exact .misfit hcheck
    · cases result with
      | error e =>
        obtain ⟨rfl, rfl⟩ := history_pure_iff.1 h
        rw [List.append_nil]
        exact .stopped hcheck hturns
      | ok =>
        obtain ⟨result, hcommit, rfl⟩ := history_do_pure_iff.1 h
        rcases history_commit_result_iff.1 hcommit with ⟨e, rfl, rfl⟩ | ⟨file, rfl, rfl⟩
        · exact .refused hcheck hturns
        · exact .committed hcheck hturns
  · intro h
    cases h with
    | misfit hcheck => exact ⟨[], _, [], rfl, .inl ⟨_, hcheck, rfl, rfl⟩, .done _⟩
    | stopped hcheck hturns =>
      exact ⟨_, _, [], (List.append_nil _).symm, .inr ⟨hcheck, hturns⟩, .done _⟩
    | refused hcheck hturns =>
      exact ⟨_, _, _, rfl, .inr ⟨hcheck, hturns⟩,
        history_do_pure_iff.2 ⟨_, history_commit_result_iff.2 (.inl ⟨_, rfl, rfl⟩), rfl⟩⟩
    | committed hcheck hturns =>
      exact ⟨_, _, _, rfl, .inr ⟨hcheck, hturns⟩,
        history_do_pure_iff.2 ⟨_, history_commit_result_iff.2 (.inr ⟨_, rfl, rfl⟩), rfl⟩⟩

/-! ## Attempts and moves -/

/-- One attempt. -/
inductive Attempted (session : Session) (u : Uploader) :
    Attempt → List (Event ε) → Except (TransferError ε) RemoteFile × Uploader → Prop
  | aborted (kind : Attempt) (habort : u.aborted = true) :
      Attempted session u kind [] (.error .aborted, u)
  | start {events : List (Event ε)} {out : Except (TransferError ε) RemoteFile × Uploader}
      (hactive : u.aborted = false) (hfinish : Finish session u events out) :
      Attempted session u .start events out
  | unlisted {e : TransferError ε} (hactive : u.aborted = false) :
      Attempted session u .resume [.listed (.error e)] (.error e, u)
  | resume {listing : List Part} {events : List (Event ε)}
      {out : Except (TransferError ε) RemoteFile × Uploader} (hactive : u.aborted = false)
      (hfinish : Finish session (u.adopt listing) events out) :
      Attempted session u .resume (.listed (.ok listing) :: events) out

/-- The histories of an attempt. -/
theorem history_attempt_iff {kind : Attempt}
    {out : Except (TransferError ε) RemoteFile × Uploader} :
    History (u.attempt session kind) events out ↔ Attempted session u kind events out := by
  cases kind with
  | start =>
    simp only [attempt, start]
    cases habort : u.aborted with
    | true =>
      simp only [if_true, history_pure_iff]
      constructor
      · rintro ⟨rfl, rfl⟩
        exact .aborted .start habort
      · intro h
        cases h with
        | aborted => exact ⟨rfl, rfl⟩
        | start hactive => rw [habort] at hactive; cases hactive
    | false =>
      simp only [Bool.false_eq_true, if_false, history_finish_iff]
      constructor
      · exact .start habort
      · intro h
        cases h with
        | aborted _ haborted => rw [habort] at haborted; cases haborted
        | start _ hfinish => exact hfinish
  | resume =>
    simp only [attempt, resume]
    cases habort : u.aborted with
    | true =>
      simp only [if_true, history_pure_iff]
      constructor
      · rintro ⟨rfl, rfl⟩
        exact .aborted .resume habort
      · intro h
        cases h with
        | aborted => exact ⟨rfl, rfl⟩
        | unlisted hactive => rw [habort] at hactive; cases hactive
        | resume hactive => rw [habort] at hactive; cases hactive
    | false =>
      simp only [Bool.false_eq_true, if_false, history_listParts_iff]
      constructor
      · rintro ⟨e | listing, rest, rfl, h⟩
        · obtain ⟨rfl, rfl⟩ := history_pure_iff.1 h
          exact .unlisted habort
        · exact .resume habort (history_finish_iff.1 h)
      · intro h
        cases h with
        | aborted _ haborted => rw [habort] at haborted; cases haborted
        | unlisted => exact ⟨.error _, [], rfl, history_pure_iff.2 ⟨rfl, rfl⟩⟩
        | resume _ hfinish => exact ⟨.ok _, _, rfl, history_finish_iff.2 hfinish⟩

/-- A resumption that is told a listing goes on with the loop and the commit. -/
theorem history_resume_listed_iff {listing : List Part}
    {out : Except (TransferError ε) RemoteFile × Uploader} (hactive : u.aborted = false) :
    History (u.resume session) (Event.listed (.ok listing) :: events) out ↔
      Finish session (u.adopt listing) events out := by
  show History (u.attempt session .resume) _ out ↔ _
  rw [history_attempt_iff]
  constructor
  · intro h
    cases h with
    | resume _ hfinish => exact hfinish
  · exact .resume hactive

/-- Whatever a resumption is answered after the listing, it comes to an end. -/
theorem exists_history_resume_listed (hactive : u.aborted = false) (listing : List Part)
    (answer : List (Event ε) → (call : TransferCall) → call.Answer ε) :
    ∃ events out, History (u.resume session) (Event.listed (.ok listing) :: events) out ∧
      Program.Follows answer [Event.listed (.ok listing)] events := by
  obtain ⟨events, out, h, hfollows⟩ := Program.exists_history answer
    [Event.listed (.ok listing)] ((u.adopt listing).finish session)
  exact ⟨events, out, (history_resume_listed_iff hactive).2 (history_finish_iff.1 h), hfollows⟩

/-- One move. -/
inductive Moved (session : Session) (u : Uploader) : Move → List (Event ε) → Uploader → Prop
  | attempt {kind : Attempt} {events : List (Event ε)} {w : Uploader}
      {result : Except (TransferError ε) RemoteFile}
      (h : Attempted session u kind events (result, w)) : Moved session u (.attempt kind) events w
  | abortFailed {e : TransferError ε} : Moved session u .abort [.discarded (.error e)] u.giveUp
  | aborted {answer : Bool} :
      Moved session u .abort
        [.discarded (.ok answer), .reported (u.giveUp.progress session .aborted)] u.giveUp

/-- The histories of an abort. -/
theorem history_abort_iff {out : Except (TransferError ε) Bool × Uploader} :
    History (u.abort session) events out ↔
      (∃ e, out = (.error e, u.giveUp) ∧ events = [.discarded (.error e)]) ∨
      ∃ answer, out = (.ok answer, u.giveUp) ∧ events =
        [.discarded (.ok answer), .reported (u.giveUp.progress session .aborted)] := by
  simp only [abort, history_discard_iff]
  constructor
  · rintro ⟨e | answer, rest, rfl, h⟩
    · obtain ⟨rfl, rfl⟩ := history_pure_iff.1 h
      exact .inl ⟨e, rfl, rfl⟩
    · obtain ⟨_, rfl, hdone⟩ := history_report_iff.1 h
      obtain ⟨rfl, rfl⟩ := history_pure_iff.1 hdone
      exact .inr ⟨answer, rfl, rfl⟩
  · rintro (⟨e, rfl, rfl⟩ | ⟨answer, rfl, rfl⟩)
    · exact ⟨.error e, [], rfl, history_pure_iff.2 ⟨rfl, rfl⟩⟩
    · exact ⟨.ok answer, _, rfl, history_report_iff.2 ⟨[], rfl, history_pure_iff.2 ⟨rfl, rfl⟩⟩⟩

/-- The histories of a move. -/
theorem history_move_iff {m : Move} {w : Uploader} :
    History (u.move session m) events w ↔ Moved session u m events w := by
  cases m with
  | attempt kind =>
    simp only [move, history_do_pure_iff, history_attempt_iff]
    constructor
    · rintro ⟨_, h, rfl⟩
      exact .attempt h
    · intro h
      cases h with
      | attempt h => exact ⟨_, h, rfl⟩
  | abort =>
    simp only [move, history_do_pure_iff, history_abort_iff]
    constructor
    · rintro ⟨_, ⟨e, rfl, rfl⟩ | ⟨answer, rfl, rfl⟩, rfl⟩
      · exact .abortFailed
      · exact .aborted
    · intro h
      cases h with
      | abortFailed => exact ⟨_, .inl ⟨_, rfl, rfl⟩, rfl⟩
      | aborted => exact ⟨_, .inr ⟨_, rfl, rfl⟩, rfl⟩

/-- Aborting as a move is an abort whose answer is dropped. -/
theorem moved_abort_iff {w : Uploader} :
    Moved session u .abort events w ↔ ∃ answer, History (u.abort session) events (answer, w) := by
  rw [← history_move_iff, move, history_do_pure_iff]
  constructor
  · rintro ⟨⟨answer, _⟩, habort, rfl⟩
    exact ⟨answer, habort⟩
  · rintro ⟨answer, habort⟩
    exact ⟨(answer, w), habort, rfl⟩

/-- One move after the other. -/
inductive Played (session : Session) : List Move → Uploader → List (Event ε) → Uploader → Prop
  | nil (u : Uploader) : Played session [] u [] u
  | cons {m : Move} {moves : List Move} {u v w : Uploader} {first rest : List (Event ε)}
      (hmove : Moved session u m first v) (hrest : Played session moves v rest w) :
      Played session (m :: moves) u (first ++ rest) w

/-- The histories of a sequence of moves. -/
theorem history_play_iff {moves : List Move} {w : Uploader} :
    History (play session moves u) events w ↔ Played session moves u events w := by
  induction moves generalizing u events with
  | nil =>
    simp only [play, history_pure_iff]
    constructor
    · rintro ⟨rfl, rfl⟩
      exact .nil _
    · intro h
      cases h
      exact ⟨rfl, rfl⟩
  | cons m moves ih =>
    simp only [play, history_do_iff, history_move_iff]
    constructor
    · rintro ⟨_, v, _, rfl, hmove, hrest⟩
      exact .cons hmove (ih.1 hrest)
    · intro h
      cases h with
      | cons hmove hrest => exact ⟨_, _, _, rfl, hmove, ih.2 hrest⟩

end Uploader

end ResumableUpload
