import ResumableUpload.Proofs.Transfer.Interrupted

/-!
# Where records come from

A record that an attempt works with was there when the loop began, or the session has returned it
since. A resumption begins its loop with the records of its listing and no others, because it
replaces both what counts as committed and what is known. So it commits no record but such as it has
been told itself (`commits_no_stale_record`), whatever earlier attempts have left behind.

A listing and the records that are returned may repeat offsets, lie off the grid, or name parts that
were never sent: nothing is assumed of the session.
-/

namespace ResumableUpload

variable {ε : Type}

/-- The session has answered a part that it was sent with this record. -/
def Returned (events : List (Transfer.Event ε)) (p : Part) : Prop :=
  ∃ bytes offset fileSize, .sent bytes offset fileSize (.ok p) ∈ events

theorem Returned.mono {before after : List (Transfer.Event ε)} {p : Part}
    (h : Returned before p) (hsub : before ⊆ after) : Returned after p := by
  obtain ⟨bytes, offset, fileSize, hmem⟩ := h
  exact ⟨bytes, offset, fileSize, hsub hmem⟩

namespace Uploader

open Program (History)

variable {session : Session} {u v w : Uploader} {events : List (Transfer.Event ε)} {p : Part}

/-- The record counts as committed or is known. -/
def Holds (u : Uploader) (p : Part) : Prop :=
  p ∈ u.committed ∨ ∃ offset : Nat, u.known[offset]? = some p

/-- Hashing leaves the records as they are. -/
theorem holds_hash_iff {part : InFlight} : (u.hash part).Holds p ↔ u.Holds p := by
  rw [Holds, committed_hash, known_hash, Holds]

/-- Counting a record adds that one at most. -/
theorem eq_or_holds_of_account {record : Part} (h : (u.account record).Holds p) :
    p = record ∨ u.Holds p := by
  rcases h with hcommitted | ⟨offset, hknown⟩
  · rcases List.mem_append.1 hcommitted with hmem | hmem
    · exact .inr (.inl hmem)
    · exact .inl (List.mem_singleton.1 hmem)
  · change (u.known.note record)[offset]? = some p at hknown
    rw [PartIndex.getElem?_note] at hknown
    split at hknown
    · cases hknown
      exact .inl rfl
    · exact .inr (.inr ⟨offset, hknown⟩)

/-- After a listing has been taken over, only what is listed is left. -/
theorem mem_of_holds_adopt {listing : List Part} (h : (u.adopt listing).Holds p) :
    p ∈ listing := by
  rcases h with hcommitted | ⟨offset, hknown⟩
  · exact mem_of_mem_reconcile hcommitted
  · exact (PartIndex.mem_of_getElem?_ofListing hknown).1

/-! ## The loop -/

/-- Looking for the next part leaves the records as they are. -/
theorem Sought.holds_iff {partSize : Nat} {result : Except (TransferError ε) Next}
    (h : Sought partSize u (result, w)) : w.Holds p ↔ u.Holds p := by
  rw [h.frame]
  exact Iff.rfl

/-- A record that is held after a turn was held before, or the session has returned it. -/
theorem Turn.holds {result : Except (TransferError ε) Unit}
    (h : Turn session u events (result, w)) (hp : w.Holds p) :
    u.Holds p ∨ Returned events p := by
  have hsought := next_sought (ε := ε) u session.partSize.toNat
  cases h with
  | failed hnext =>
    rw [hnext] at hsought
    exact .inl (hsought.holds_iff.1 hp)
  | @recalled record v hnext =>
    rw [hnext] at hsought
    rcases eq_or_holds_of_account hp with rfl | hp
    · cases hsought with
      | recorded _ hknown => exact .inl (.inr ⟨_, hknown⟩)
    · exact .inl (hsought.holds_iff.1 hp)
  | @reused part record v hnext hknown =>
    rw [hnext] at hsought
    rcases eq_or_holds_of_account hp with rfl | hp
    · have hheld : (v.hash part).Holds p := .inr ⟨_, hknown⟩
      exact .inl (hsought.holds_iff.1 (holds_hash_iff.1 hheld))
    · exact .inl (hsought.holds_iff.1 (holds_hash_iff.1 hp))
  | @stored part record v hnext =>
    rw [hnext] at hsought
    rcases eq_or_holds_of_account hp with rfl | hp
    · exact .inr ⟨_, _, _, List.mem_cons_self⟩
    · exact .inl (hsought.holds_iff.1 (holds_hash_iff.1 hp))
  | @held part e v hnext =>
    rw [hnext] at hsought
    have hheld : (v.hash part).Holds p := hp
    exact .inl (hsought.holds_iff.1 (holds_hash_iff.1 hheld))

/-- A record that is held after the loop was held before, or the session has returned it. -/
theorem Turns.holds {count : Nat} {out : Except (TransferError ε) Unit × Uploader}
    (h : Turns session count u events out) (hp : out.2.Holds p) :
    u.Holds p ∨ Returned events p := by
  induction h with
  | done => exact .inl hp
  | failed hturn => exact hturn.holds hp
  | @more count u v first rest out hturn _ ih =>
    rcases ih hp with hheld | hreturned
    · rcases hturn.holds hheld with hheld | hreturned
      · exact .inl hheld
      · exact .inr (hreturned.mono (List.subset_append_left first rest))
    · exact .inr (hreturned.mono (List.subset_append_right first rest))

/-! ## The attempt -/

/-- A record that is held in the end was held when the loop began, or has been returned since. -/
theorem Finish.holds {out : Except (TransferError ε) RemoteFile × Uploader}
    (h : Finish session u events out) (hp : out.2.Holds p) : u.Holds p ∨ Returned events p := by
  cases h with
  | misfit => exact .inl hp
  | stopped _ hturns => exact hturns.holds hp
  | refused _ hturns =>
    exact (hturns.holds hp).imp_right fun h => h.mono (List.subset_append_left _ _)
  | committed _ hturns =>
    exact (hturns.holds hp).imp_right fun h => h.mono (List.subset_append_left _ _)

/-- The whole loop comes before a commit, and what is committed are the records that it has ended
with. -/
theorem Finish.before_commit {out : Except (TransferError ε) RemoteFile × Uploader}
    (h : Finish session u events out) {before after : List (Transfer.Event ε)}
    {digest : Sha1.Digest} {parts : List Part} {answer : Except (TransferError ε) RemoteFile}
    (hevents : events = before ++ .committed digest parts answer :: after) :
    parts = out.2.committed ∧ ∃ loop, loop <+: before ∧
      Turns session (session.totalParts.toNat - u.committed.length) u loop (.ok (), out.2) := by
  have hmem : .committed digest parts answer ∈ events := by
    rw [hevents]
    exact List.mem_append_right _ List.mem_cons_self
  -- The loop does not commit, so it cannot reach beyond what comes before the commit.
  have hprefix : ∀ {loop : List (Transfer.Event ε)} {count : Nat} {w : Uploader},
      Turns session count u loop (.ok (), w) → loop <+: events → loop <+: before := by
    intro loop count w hturns hloop
    have hnot : .committed digest parts answer ∉ loop := hturns.question_isOfLoop _
    have hbefore : before ++ [.committed digest parts answer] <+: events :=
      ⟨after, by rw [hevents, List.append_assoc, List.singleton_append]⟩
    rcases List.prefix_or_prefix_of_prefix hloop hbefore with hshort | hlong
    · rcases List.prefix_concat_iff.1 hshort with rfl | hshort
      · exact absurd (List.mem_append_right _ (List.mem_singleton_self _)) hnot
      · exact hshort
    · exact absurd (hlong.subset (List.mem_append_right _ (List.mem_singleton_self _))) hnot
  refine ⟨(h.of_committed hmem).2.1, ?_⟩
  cases h with
  | misfit => cases hmem
  | stopped _ hturns => exact absurd hmem (hturns.question_isOfLoop _)
  | refused _ hturns => exact ⟨_, hprefix hturns (List.prefix_append _ _), hturns⟩
  | committed _ hturns => exact ⟨_, hprefix hturns (List.prefix_append _ _), hturns⟩

/-- In whatever state a resumption begins, and whatever the session lists, returns or refuses: each
record that it commits is in the listing that it has fetched, or the session has returned it to a
part that this very attempt has sent before. And once a listing has been taken over, no record is
held but such as the listing names or the session has returned since. -/
theorem commits_no_stale_record (u : Uploader) (session : Session)
    {out : Except (TransferError ε) RemoteFile × Uploader}
    (h : History (u.resume session) events out) :
    (∀ before digest parts answer after,
      events = before ++ .committed digest parts answer :: after →
      ∃ listing asked, before = .listed (.ok listing) :: asked ∧
        ∀ p ∈ parts, p ∈ listing ∨ Returned asked p) ∧
    ∀ listing asked, events = .listed (.ok listing) :: asked →
      ∀ p, out.2.Holds p → p ∈ listing ∨ Returned asked p := by
  have hattempt : Attempted session u .resume events out := history_attempt_iff.1 h
  cases hattempt with
  | aborted => exact ⟨fun before _ _ _ after hevents => by simp at hevents, nofun⟩
  | unlisted =>
    refine ⟨fun before _ _ _ after hevents => ?_, fun listing asked hevents => by cases hevents⟩
    rcases List.cons_eq_append_iff.1 hevents with ⟨rfl, hcommit⟩ | ⟨_, rfl, hnil⟩
    · cases hcommit
    · simp at hnil
  | @resume listing asked _ _ hfinish =>
    refine ⟨fun before digest parts answer after hevents => ?_,
      fun listing' asked' hevents p hp => ?_⟩
    · rcases List.cons_eq_append_iff.1 hevents with ⟨rfl, hcommit⟩ | ⟨between, rfl, hasked⟩
      · cases hcommit
      · obtain ⟨rfl, loop, hloop, hturns⟩ := hfinish.before_commit hasked
        refine ⟨listing, between, rfl, fun p hp => ?_⟩
        rcases hturns.holds (.inl hp) with hheld | hreturned
        · exact .inl (mem_of_holds_adopt hheld)
        · exact .inr (hreturned.mono hloop.subset)
    · cases hevents
      exact (hfinish.holds hp).imp_left mem_of_holds_adopt

/-- The first of two parts is stored, and sending the second fails. The session then has lost the
record of the first and lists another one. The resumption commits that one, and does not hold the
lost one any more. -/
theorem commits_listed_for_lost_record :
    let session : Session := ⟨"two", 2, 1⟩
    let lost : Part := ⟨"lost", 0, 1, ""⟩
    let found : Part := ⟨"found", 0, 1, ""⟩
    let second : Part := ⟨"second", 1, 1, ""⟩
    ∃ (earlier before events : List (Transfer.Event String)) (u w : Uploader)
        (digest : Sha1.Digest) (answer : Except (TransferError String) RemoteFile),
      History (play session [.attempt .start] (.ofReader (.ofBytes [1, 2]) 2)) earlier u ∧
      u.Holds lost ∧ History (u.resume session) events (answer, w) ∧
      events = before ++ [.committed digest [found, second] answer] ∧
      Returned before second ∧ ¬w.Holds lost := by
  intro session lost found second
  have hfits : session.Fits 2 := by decide
  have hcheck := Geometry.check_eq_ok_iff.2 hfits
  obtain ⟨u, hstart, hu⟩ := exists_interrupted hfits [1] [2] [] lost (.session "reset") rfl
    (List.cons_ne_nil _ _) rfl (by decide)
  have hplayed : Played session [.attempt .start] (ofReader (.ofBytes [1, 2]) 2) _ u :=
    .cons (.attempt hstart) (.nil u)
  have hslot : u.slot = .holding ⟨1, [2]⟩ := hu.slot_eq
  let v : Uploader := u.adopt [found]
  have hcommitted : v.committed = [found] := by
    simp [v, found, adopt, hslot, Slot.offset?, Slot.part?, reconcile, Reconciliation.byOffset,
      Reconciliation.firstOfEach, Reconciliation.run]
  have hholding : v.slot = .holding ⟨1, [2]⟩ := by
    simp [v, found, adopt, hslot, Slot.offset?, Slot.part?, reconcile]
  have hnext : v.next (ε := String) session.partSize.toNat =
      (.ok (.atHand ⟨1, [2]⟩), { v with slot := .idle }) :=
    next_of_waiting hholding (by rw [hcommitted]; rfl)
  let sent : Uploader := { v with slot := .idle }
  have hunknown : (sent.hash ⟨1, [2]⟩).known[1]? = none := by
    rw [known_hash]
    show (PartIndex.ofListing [found])[1]? = none
    cbv
  let w : Uploader := (sent.hash ⟨1, [2]⟩).account second
  let loop : List (Transfer.Event String) :=
    [.sent [2] 1 (sent.hash ⟨1, [2]⟩).fileSize (.ok second), w.accounted session]
  have hlast : Turn session v loop (.ok (), w) := .stored hnext hunknown
  have hrest :
      Turns session (session.totalParts.toNat - v.committed.length) v loop (.ok (), w) := by
    rw [hcommitted]
    exact .more hlast (.done w)
  have hresume := history_attempt_iff.2 (.resume hu.active
    (.refused (e := .session "reset") (hu.fileSize_eq.symm ▸ hcheck) hrest))
  have hparts : w.committed = [found, second] := by
    show (sent.hash ⟨1, [2]⟩).committed ++ [second] = [found, second]
    rw [committed_hash]
    exact congrArg (· ++ [second]) hcommitted
  rw [hparts] at hresume
  let before := Transfer.Event.listed (.ok [found]) :: loop ++
    [Transfer.Event.reported (w.progress session .committing)]
  obtain ⟨hcommits, hholds⟩ := commits_no_stale_record u session hresume
  obtain ⟨listing, asked, hbefore, hsources⟩ := hcommits before _ _ _ [] rfl
  cases (List.cons.inj hbefore).1
  refine ⟨_, before, _, u, w, _, _, history_play_iff.2 hplayed, .inl (hu.committed_eq ▸ List.mem_cons_self),
    hresume, rfl, ?_, fun hstale => ?_⟩
  · rcases hsources second (List.mem_cons_of_mem _ List.mem_cons_self) with hlisted | hreturned
    · simp [found, second] at hlisted
    · exact hreturned.mono (hbefore ▸ List.subset_cons_self _ _)
  · rcases hholds _ _ rfl lost hstale with hlisted | ⟨_, _, _, hmem⟩
    · simp [found, lost] at hlisted
    · have hne : second ≠ lost := by decide
      clear_value second lost
      simp only [loop, List.cons_append, List.nil_append, List.mem_cons, List.not_mem_nil,
        or_false] at hmem
      rcases hmem with hsent | hreported | hreported | hcommitted
      · cases hsent
        exact hne rfl
      · cases hreported
      · cases hreported
      · cases hcommitted

end Uploader

end ResumableUpload
