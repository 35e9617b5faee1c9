import ResumableUpload.Proofs.Transfer.Hashing

/-!
# Giving up is for good

An upload that is given up lets go of its stream, its records and its slot before it tells the
session, so it is given up whatever the session answers (`Uploader.GivenUp`). From then on no move
changes it: an attempt ends at once and asks for nothing, and another abort asks the session once
more (`abort_is_terminal`). This holds from every state, and over sessions that change.
-/

namespace ResumableUpload

variable {ε : Type}

/-- What an abort asks for, with the answer of the session. That it is over is reported if the
session has answered at all, be it that it has not agreed. -/
def farewell (session : Session) (fileSize : UInt64) (answer : Except (TransferError ε) Bool) :
    List (Transfer.Event ε) :=
  .discarded answer ::
    match answer with
    | .error _ => []
    | .ok _ => [.reported ⟨session.id, .aborted, fileSize, 0, 0, session.totalParts⟩]

namespace Uploader

open Program (History)

variable {session : Session} {u v w : Uploader} {events : List (Transfer.Event ε)}

/-- The histories of an abort: one for each answer of the session. -/
theorem history_abort_iff_farewell {out : Except (TransferError ε) Bool × Uploader} :
    History (u.abort session) events out ↔
      ∃ answer, events = farewell session u.fileSize answer ∧ out = (answer, u.giveUp) := by
  rw [history_abort_iff]
  constructor
  · rintro (⟨e, rfl, rfl⟩ | ⟨answer, rfl, rfl⟩)
    · exact ⟨.error e, rfl, rfl⟩
    · exact ⟨.ok answer, rfl, rfl⟩
  · rintro ⟨e | answer, rfl, rfl⟩
    · exact .inl ⟨e, rfl, rfl⟩
    · exact .inr ⟨answer, rfl, rfl⟩

/-- The upload has let go of everything, and knows it. -/
structure GivenUp (u : Uploader) : Prop where
  aborted : u.aborted = true
  content_eq : u.content = none
  committed_eq : u.committed = []
  slot_eq : u.slot = .idle

/-- Giving up gives up. -/
theorem givenUp_giveUp (u : Uploader) : u.giveUp.GivenUp := ⟨rfl, rfl, rfl, rfl⟩

namespace GivenUp

/-- There is nothing left to give up. -/
theorem giveUp_eq (h : u.GivenUp) : u.giveUp = u := by
  rw [giveUp, ← h.aborted, ← h.content_eq, ← h.committed_eq, ← h.slot_eq]

/-- Every attempt ends at once, and asks for nothing. -/
theorem history_attempt_iff (h : u.GivenUp) {kind : Attempt}
    {out : Except (TransferError ε) RemoteFile × Uploader} :
    History (u.attempt session kind) events out ↔ events = [] ∧ out = (.error .aborted, u) := by
  rw [Uploader.history_attempt_iff]
  constructor
  · intro hattempt
    have hactive : u.aborted ≠ false := by simp [h.aborted]
    cases hattempt with
    | aborted => exact ⟨rfl, rfl⟩
    | start hfalse => exact absurd hfalse hactive
    | unlisted hfalse => exact absurd hfalse hactive
    | resume hfalse => exact absurd hfalse hactive
  · rintro ⟨rfl, rfl⟩
    exact .aborted kind h.aborted

/-- Another abort tells the session again, and changes nothing. -/
theorem history_abort_iff (h : u.GivenUp) {out : Except (TransferError ε) Bool × Uploader} :
    History (u.abort session) events out ↔
      ∃ answer, events = farewell session u.fileSize answer ∧ out = (answer, u) := by
  rw [history_abort_iff_farewell, h.giveUp_eq]

/-- No move changes an upload that has been given up. -/
theorem eq_of_moved (h : u.GivenUp) {m : Move} (hmoved : Moved session u m events w) : w = u := by
  cases hmoved with
  | attempt hattempt =>
    obtain ⟨-, hout⟩ := h.history_attempt_iff.1 (Uploader.history_attempt_iff.2 hattempt)
    exact congrArg Prod.snd hout
  | abortFailed => exact h.giveUp_eq
  | aborted => exact h.giveUp_eq

/-- No sequence of moves changes an upload that has been given up. -/
theorem eq_of_playOver (h : u.GivenUp) {moves : List (Session × Move)}
    (hplayed : History (playOver moves u) events w) : w = u := by
  refine keeps_playOver (· = u) (fun m _ v w events hmoved hv => ?_) hplayed rfl
  subst hv
  exact h.eq_of_moved hmoved

end GivenUp

/-- In whatever state an upload is aborted, and whatever the session answers: the abort asks the
session once, and its result is the answer. Afterwards the upload has let go of its stream, its
records and its slot, and whatever is done with it then, over whatever sessions, does not change
that. Every later attempt fails as aborted and asks for nothing; every later abort asks the session
once, has its answer as result, and reports that no part and no byte is left exactly if the session
has answered. -/
theorem abort_is_terminal (u : Uploader) (session : Session) :
    (∀ answer : Except (TransferError ε) Bool, ∃ w,
      History (u.abort session) (farewell session u.fileSize answer) (answer, w)) ∧
    ∀ (events : List (Transfer.Event ε)) (result : Except (TransferError ε) Bool) (w : Uploader),
      History (u.abort session) events (result, w) →
      events = farewell session u.fileSize result ∧ w.GivenUp ∧
      ∀ (later : List (Session × Move)) (after : List (Transfer.Event ε)) (v : Uploader),
        History (playOver later w) after v →
        v.GivenUp ∧ v = w ∧
        (∀ (session : Session) (kind : Attempt) (events : List (Transfer.Event ε))
            (out : Except (TransferError ε) RemoteFile × Uploader),
          History (v.attempt session kind) events out ↔
            events = [] ∧ out = (.error .aborted, v)) ∧
        ∀ (session : Session) (events : List (Transfer.Event ε))
            (out : Except (TransferError ε) Bool × Uploader),
          History (v.abort session) events out ↔
            ∃ answer, events = farewell session u.fileSize answer ∧ out = (answer, v) := by
  refine ⟨fun answer => ⟨_, history_abort_iff_farewell.2 ⟨answer, rfl, rfl⟩⟩, ?_⟩
  intro events result w h
  obtain ⟨answer, rfl, hout⟩ := history_abort_iff_farewell.1 h
  obtain ⟨rfl, rfl⟩ := Prod.mk.inj hout
  refine ⟨rfl, givenUp_giveUp u, fun later after v hplayed => ?_⟩
  obtain rfl := (givenUp_giveUp u).eq_of_playOver hplayed
  exact ⟨givenUp_giveUp u, rfl, fun _ _ _ _ => (givenUp_giveUp u).history_attempt_iff,
    fun _ _ _ => (givenUp_giveUp u).history_abort_iff⟩

/-- Sending the only part fails, and so does the abort after it. The part in flight is gone all the
same, a resumption is refused, and the next abort is answered that the session does not agree. -/
theorem given_up_although_abort_fails :
    let session : Session := ⟨"one", 1, 1⟩
    let failing : List (Transfer.Event String) := [.discarded (.error (.session "reset"))]
    let declining : List (Transfer.Event String) :=
      [.discarded (.ok false), .reported ⟨"one", .aborted, 1, 0, 0, 1⟩]
    ∃ (earlier : List (Transfer.Event String)) (u w : Uploader),
      History (play session [.attempt .start] (.ofReader (.ofBytes [7]) 1)) earlier u ∧
      u.slot = .holding ⟨0, [7]⟩ ∧
      History (u.abort session) failing (.error (.session "reset"), w) ∧ w.GivenUp ∧
      History (w.attempt (ε := String) session .resume) [] (.error .aborted, w) ∧
      History (w.abort session) declining (.ok false, w) := by
  intro session failing declining
  let read : Uploader :=
    { ofReader (.ofBytes [7]) 1 with content := some ⟨⟨[.data [] none], [1]⟩, 1, [], false⟩ }
  obtain ⟨u, hheld, hsize, hslot⟩ : ∃ u : Uploader,
      Turn session (ofReader (.ofBytes [7]) 1) [.sent [7] 0 1 (.error (.session "reset"))]
        (.error (.session "reset"), u) ∧ u.fileSize = 1 ∧ u.slot = .holding ⟨0, [7]⟩ :=
    ⟨_, @Turn.held _ _ _ ⟨0, [7]⟩ _ read (by cbv) (by cbv), by cbv, by cbv⟩
  have hstopped : Finish session (ofReader (.ofBytes [7]) 1) _ _ :=
    .stopped (Geometry.check_eq_ok_iff.2 (by decide)) (.failed hheld)
  have hplayed : Played session [.attempt .start] (ofReader (.ofBytes [7]) 1) _ u :=
    .cons (.attempt (.start rfl hstopped)) (.nil u)
  obtain ⟨hends, hterminal⟩ := abort_is_terminal (ε := String) u session
  obtain ⟨w, habort⟩ := hends (.error (.session "reset"))
  obtain ⟨-, hgivenUp, hlater⟩ := hterminal _ _ w habort
  obtain ⟨-, -, hattempt, hagain⟩ := hlater [] [] w (.done w)
  refine ⟨_, u, w, history_play_iff.2 hplayed, hslot, habort, hgivenUp,
    (hattempt session .resume _ _).2 ⟨rfl, rfl⟩, (hagain session _ _).2 ⟨.ok false, ?_, rfl⟩⟩
  rw [hsize]
  rfl

end Uploader

end ResumableUpload
