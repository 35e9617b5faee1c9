import ResumableUpload.Proofs.Transfer.Course
import ResumableUpload.Proofs.Transfer.Search

/-!
# From one turn to every course of events

What a turn of the loop, a listing and an abort keep, every sequence of moves keeps
(`Kept.of_played`). Along with the invariant goes a statement about everything that is asked on the
way. Both may rely on what the upload is told, that is, on a property of the single answers.

A turn that succeeds counts one record (`Turn.length_committed`), and a turn takes place only while
records are missing. So an invariant that is needed only then is enough.
-/

namespace ResumableUpload

/-- The two questions of the loop. -/
def TransferCall.IsOfLoop : TransferCall → Prop
  | .sendPart _ _ _ => True
  | .report _ => True
  | _ => False

namespace Uploader

variable {ε : Type} {session : Session} {u v w : Uploader} {events : List (Transfer.Event ε)}

/-! ## Every turn counts one record -/

/-- Hashing leaves the records as they are. -/
theorem committed_hash (part : InFlight) : (u.hash part).committed = u.committed := by
  rw [hash]
  split <;> rfl

/-- Hashing leaves alone what is known. -/
theorem known_hash (part : InFlight) : (u.hash part).known = u.known := by
  rw [hash]
  split <;> rfl

/-- Counting a record makes one more. -/
theorem length_committed_account (record : Part) :
    (u.account record).committed.length = u.committed.length + 1 :=
  List.length_append

/-- A turn that does not fail counts exactly one record. -/
theorem Turn.committed_eq (h : Turn session u events (.ok (), w)) :
    ∃ record, w.committed = u.committed ++ [record] ∧ w.known = u.known.note record := by
  have hsought := next_sought (ε := ε) u session.partSize.toNat
  have hcount : ∀ {part : InFlight} {record : Part} {v : Uploader},
      u.next (ε := ε) session.partSize.toNat = (.ok (.atHand part), v) →
      ((v.hash part).account record).committed = u.committed ++ [record] ∧
        ((v.hash part).account record).known = u.known.note record := by
    intro part record v hnext
    rw [hnext] at hsought
    simp only [account, committed_hash, known_hash]
    rw [hsought.frame]
    exact ⟨rfl, rfl⟩
  cases h with
  | @recalled record v hnext =>
    rw [hnext] at hsought
    exact ⟨record, by rw [hsought.frame]; exact ⟨rfl, rfl⟩⟩
  | @reused part record v hnext => exact ⟨record, hcount hnext⟩
  | @stored part record v hnext => exact ⟨record, hcount hnext⟩

/-- A turn counts one record, or fails. -/
theorem Turn.length_committed (h : Turn session u events (.ok (), w)) :
    w.committed.length = u.committed.length + 1 := by
  obtain ⟨record, hcommitted, -⟩ := h.committed_eq
  rw [hcommitted, List.length_append, List.length_singleton]

/-! ## What is asked -/

/-- The loop asks for nothing but to take a part or to note how far it is. -/
theorem Turn.question_isOfLoop {out : Except (TransferError ε) Unit × Uploader}
    (h : Turn session u events out) : ∀ event ∈ events, event.question.IsOfLoop := by
  cases h with
  | failed => exact nofun
  | recalled => exact List.forall_mem_singleton.2 trivial
  | reused => exact List.forall_mem_singleton.2 trivial
  | stored => exact List.forall_mem_cons.2 ⟨trivial, List.forall_mem_singleton.2 trivial⟩
  | held => exact List.forall_mem_singleton.2 trivial

theorem Turns.question_isOfLoop {count : Nat} {out : Except (TransferError ε) Unit × Uploader}
    (h : Turns session count u events out) : ∀ event ∈ events, event.question.IsOfLoop := by
  induction h with
  | done => exact nofun
  | failed hturn => exact hturn.question_isOfLoop
  | more hturn _ ih => exact List.forall_mem_append.2 ⟨hturn.question_isOfLoop, ih⟩

/-- What the loop and the commit ask is of the loop, but for the commit itself. That takes place if
the loop has succeeded, and passes the records and the digest that it has ended with. -/
theorem Finish.asked {out : Except (TransferError ε) RemoteFile × Uploader}
    (h : Finish session u events out) : ∀ event ∈ events, event.question.IsOfLoop ∨
      (∃ answer, event = .committed out.2.digest.finish out.2.committed answer) ∧
        ∃ before : List (Transfer.Event ε), Turns session
          (session.totalParts.toNat - u.committed.length) u before (.ok (), out.2) := by
  cases h with
  | misfit => exact nofun
  | stopped _ hturns => exact fun event hmem => .inl (hturns.question_isOfLoop event hmem)
  | refused _ hturns =>
    refine List.forall_mem_append.2
      ⟨fun event hmem => .inl (hturns.question_isOfLoop event hmem), ?_⟩
    exact List.forall_mem_cons.2
      ⟨.inl trivial, List.forall_mem_singleton.2 (.inr ⟨⟨_, rfl⟩, _, hturns⟩)⟩
  | committed _ hturns =>
    refine List.forall_mem_append.2
      ⟨fun event hmem => .inl (hturns.question_isOfLoop event hmem), ?_⟩
    exact List.forall_mem_cons.2 ⟨.inl trivial, List.forall_mem_cons.2
      ⟨.inr ⟨⟨_, rfl⟩, _, hturns⟩, List.forall_mem_singleton.2 (.inl trivial)⟩⟩

/-- What is committed are the records and the digest that the loop has ended with. -/
theorem Finish.of_committed {out : Except (TransferError ε) RemoteFile × Uploader}
    (h : Finish session u events out) {digest : Sha1.Digest} {parts : List Part}
    {answer : Except (TransferError ε) RemoteFile}
    (hmem : .committed digest parts answer ∈ events) :
    digest = out.2.digest.finish ∧ parts = out.2.committed ∧
      ∃ before : List (Transfer.Event ε),
        Turns session (session.totalParts.toNat - u.committed.length) u before (.ok (), out.2) := by
  rcases h.asked _ hmem with hloop | ⟨⟨answer', hcommit⟩, hturns⟩
  · exact hloop.elim
  · obtain ⟨rfl, rfl, -⟩ := Transfer.Event.committed_inj hcommit
    exact ⟨rfl, rfl, hturns⟩

/-- Neither the loop nor the commit discards the session. -/
theorem Finish.question_ne_discard {out : Except (TransferError ε) RemoteFile × Uploader}
    (h : Finish session u events out) : ∀ event ∈ events, event.question ≠ .discard := by
  intro event hmem hdiscard
  rcases h.asked event hmem with hloop | ⟨⟨_, rfl⟩, -⟩
  · rw [hdiscard] at hloop
    exact hloop
  · cases hdiscard

/-- No attempt discards the session. -/
theorem Attempted.question_ne_discard {kind : Attempt}
    {out : Except (TransferError ε) RemoteFile × Uploader}
    (h : Attempted session u kind events out) : ∀ event ∈ events, event.question ≠ .discard := by
  cases h with
  | aborted => exact nofun
  | start _ hfinish => exact hfinish.question_ne_discard
  | unlisted => exact List.forall_mem_singleton.2 nofun
  | resume _ hfinish => exact List.forall_mem_cons.2 ⟨nofun, hfinish.question_ne_discard⟩

/-! ## Invariants -/

/-- An invariant of an upload that is told only such answers, and what holds of all it asks. -/
structure Kept (session : Session) (told asked : Transfer.Event ε → Prop) (inv : Uploader → Prop) :
    Prop where
  /-- A turn that takes place while records are missing. -/
  turn : ∀ {u : Uploader} {events : List (Transfer.Event ε)}
    {out : Except (TransferError ε) Unit × Uploader}, inv u →
    u.committed.length < session.totalParts.toNat → Turn session u events out →
    (∀ event ∈ events, told event) → inv out.2 ∧ ∀ event ∈ events, asked event
  /-- A commit, when no record is missing. -/
  commit : ∀ {u : Uploader} (answer : Except (TransferError ε) RemoteFile), inv u →
    session.totalParts.toNat ≤ u.committed.length →
    asked (.committed u.digest.finish u.committed answer)
  adopt : ∀ {u : Uploader} {listing : List Part}, inv u → told (.listed (.ok listing)) →
    inv (u.adopt listing)
  giveUp : ∀ {u : Uploader}, inv u → inv u.giveUp
  listed : ∀ answer, asked (.listed answer)
  discarded : ∀ answer, asked (.discarded answer)
  reported : ∀ progress, asked (.reported progress)

namespace Kept

variable {told asked : Transfer.Event ε → Prop} {inv : Uploader → Prop}

/-- The loop keeps the invariant, and if it succeeds no record is missing any more. -/
theorem of_turns (hkept : Kept session told asked inv) {count : Nat}
    {out : Except (TransferError ε) Unit × Uploader} (h : Turns session count u events out)
    (hcount : count ≤ session.totalParts.toNat - u.committed.length) (hinv : inv u)
    (htold : ∀ event ∈ events, told event) :
    (inv out.2 ∧ ∀ event ∈ events, asked event) ∧
      (out.1 = .ok () → out.2.committed.length = u.committed.length + count) := by
  induction h with
  | done => exact ⟨⟨hinv, nofun⟩, fun _ => rfl⟩
  | failed hturn => exact ⟨hkept.turn hinv (by omega) hturn htold, nofun⟩
  | more hturn _ ih =>
    obtain ⟨htold, htold'⟩ := List.forall_mem_append.1 htold
    obtain ⟨hfirst, hasked⟩ := hkept.turn hinv (by omega) hturn htold
    have hlength := hturn.length_committed
    obtain ⟨⟨hlast, hasked'⟩, hdone⟩ := ih (by omega) hfirst htold'
    refine ⟨⟨hlast, List.forall_mem_append.2 ⟨hasked, hasked'⟩⟩, fun hok => ?_⟩
    have := hdone hok
    omega

/-- A loop that succeeds keeps the invariant, and what may be asked after it is the commit. -/
theorem of_turns_ok (hkept : Kept session told asked inv)
    (h : Turns session (session.totalParts.toNat - u.committed.length) u events (.ok (), w))
    (hinv : inv u) (htold : ∀ event ∈ events, told event) :
    inv w ∧ (∀ event ∈ events, asked event) ∧
      ∀ answer, asked (.committed w.digest.finish w.committed answer) := by
  obtain ⟨⟨hlast, hasked⟩, hdone⟩ := hkept.of_turns h (Nat.le_refl _) hinv htold
  have hlength : w.committed.length = _ := hdone rfl
  exact ⟨hlast, hasked, fun answer => hkept.commit answer hlast (by omega)⟩

/-- The loop and the commit keep the invariant. -/
theorem of_finish (hkept : Kept session told asked inv)
    {out : Except (TransferError ε) RemoteFile × Uploader} (h : Finish session u events out)
    (hinv : inv u) (htold : ∀ event ∈ events, told event) :
    inv out.2 ∧ ∀ event ∈ events, asked event := by
  cases h with
  | misfit => exact ⟨hinv, nofun⟩
  | stopped _ hturns => exact (hkept.of_turns hturns (Nat.le_refl _) hinv htold).1
  | refused _ hturns =>
    obtain ⟨hlast, hasked, hcommit⟩ :=
      hkept.of_turns_ok hturns hinv (List.forall_mem_append.1 htold).1
    refine ⟨hlast, List.forall_mem_append.2 ⟨hasked, ?_⟩⟩
    exact List.forall_mem_cons.2 ⟨hkept.reported _, List.forall_mem_singleton.2 (hcommit _)⟩
  | committed _ hturns =>
    obtain ⟨hlast, hasked, hcommit⟩ :=
      hkept.of_turns_ok hturns hinv (List.forall_mem_append.1 htold).1
    refine ⟨hlast, List.forall_mem_append.2 ⟨hasked, ?_⟩⟩
    exact List.forall_mem_cons.2 ⟨hkept.reported _, List.forall_mem_cons.2
      ⟨hcommit _, List.forall_mem_singleton.2 (hkept.reported _)⟩⟩

/-- An attempt keeps the invariant. -/
theorem of_attempted (hkept : Kept session told asked inv) {kind : Attempt}
    {out : Except (TransferError ε) RemoteFile × Uploader} (h : Attempted session u kind events out)
    (hinv : inv u) (htold : ∀ event ∈ events, told event) :
    inv out.2 ∧ ∀ event ∈ events, asked event := by
  cases h with
  | aborted => exact ⟨hinv, nofun⟩
  | start _ hfinish => exact hkept.of_finish hfinish hinv htold
  | unlisted => exact ⟨hinv, fun event hmem => List.mem_singleton.1 hmem ▸ hkept.listed _⟩
  | resume _ hfinish =>
    obtain ⟨hlisting, hrest⟩ := List.forall_mem_cons.1 htold
    obtain ⟨hlast, hasked⟩ := hkept.of_finish hfinish (hkept.adopt hinv hlisting) hrest
    exact ⟨hlast, List.forall_mem_cons.2 ⟨hkept.listed _, hasked⟩⟩

/-- A move keeps the invariant. -/
theorem of_moved (hkept : Kept session told asked inv) {m : Move} (h : Moved session u m events w)
    (hinv : inv u) (htold : ∀ event ∈ events, told event) :
    inv w ∧ ∀ event ∈ events, asked event := by
  cases h with
  | attempt h => exact hkept.of_attempted h hinv htold
  | abortFailed =>
    exact ⟨hkept.giveUp hinv, fun event hmem => List.mem_singleton.1 hmem ▸ hkept.discarded _⟩
  | aborted =>
    refine ⟨hkept.giveUp hinv, List.forall_mem_cons.2 ⟨hkept.discarded _, fun event hmem => ?_⟩⟩
    exact List.mem_singleton.1 hmem ▸ hkept.reported _

/-- What every turn, every listing and every abort keep, every sequence of moves keeps. -/
theorem of_played (hkept : Kept session told asked inv) {moves : List Move}
    (h : Played session moves u events w) (hinv : inv u) (htold : ∀ event ∈ events, told event) :
    inv w ∧ ∀ event ∈ events, asked event := by
  induction h with
  | nil => exact ⟨hinv, nofun⟩
  | cons hmove _ ih =>
    obtain ⟨htold, htold'⟩ := List.forall_mem_append.1 htold
    obtain ⟨hfirst, hasked⟩ := hkept.of_moved hmove hinv htold
    obtain ⟨hlast, hasked'⟩ := ih hfirst htold'
    exact ⟨hlast, List.forall_mem_append.2 ⟨hasked, hasked'⟩⟩

end Kept

end Uploader

end ResumableUpload
