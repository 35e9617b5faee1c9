import ResumableUpload.Proofs.Transfer.FreshResume
import ResumableUpload.Proofs.Transfer.Hashing
import ResumableUpload.Proofs.Transfer.Interrupted

/-!
# When what counts is what is known

Two places of an upload hold records of the server: the list of those that count as committed, and
the index of those that are known. They agree if each record that counts is the one that is known
for its offset (`Uploader.Agrees`). The loop neither disturbs nor restores that: it counts only
records that it knows or notes them, and does not replace what is known (`Uploader.Grown`).

So they can part only where a listing is taken over, and that is where they do: of records with one
offset the first counts and the last is known. Whether the two agree is decided there
(`agreement_is_decided_by_listing`), and a listing that names no offset twice cannot part them.
-/

namespace ResumableUpload

variable {ε : Type}

namespace Uploader

open Program (History history_do_iff)

variable {session : Session} {u v w : Uploader} {events : List (Transfer.Event ε)}

/-- Each record that counts as committed is the one that is known for its offset. -/
def Agrees (u : Uploader) : Prop := ∀ p ∈ u.committed, u.known[p.offset.toNat]? = some p

/-- Known records are under their own offsets, and for each record that counts one of its offset is
known. -/
structure Indexed (u : Uploader) : Prop where
  keyed : u.known.Keyed
  isSome_known : ∀ p ∈ u.committed, u.known[p.offset.toNat]?.isSome

/-- An upload that has not begun holds no records. -/
theorem indexed_ofReader (reader : Reader) (fileSize : UInt64) :
    (ofReader reader fileSize).Indexed where
  keyed _ _ h := by
    rw [show (ofReader reader fileSize).known = ∅ from rfl, Std.ExtTreeMap.getElem?_empty] at h
    cases h
  isSome_known := nofun

/-- What is listed is known. -/
theorem indexed_adopt (u : Uploader) (listing : List Part) : (u.adopt listing).Indexed where
  keyed := PartIndex.keyed_ofListing listing
  isSome_known _ hp := PartIndex.isSome_getElem?_ofListing (mem_of_mem_reconcile hp)

/-! ## The loop -/

/-- What was known is known still, and what has come to count is known. -/
structure Grown (u w : Uploader) : Prop where
  keyed : u.known.Keyed → w.known.Keyed
  known_of_known : ∀ (offset : Nat) (p : Part), u.known[offset]? = some p →
    w.known[offset]? = some p
  counted : ∃ more, w.committed = u.committed ++ more ∧
    ∀ p ∈ more, w.known[p.offset.toNat]? = some p

namespace Grown

/-- An upload with the same records. -/
theorem of_eq (hcommitted : w.committed = u.committed) (hknown : w.known = u.known) :
    Grown u w where
  keyed := by rw [hknown]; exact id
  known_of_known offset p h := by rw [hknown]; exact h
  counted := ⟨[], by rw [hcommitted, List.append_nil], nofun⟩

/-- Counting a record replaces nothing that is known, if it is itself what is known for its
offset. -/
theorem account (hcommitted : v.committed = u.committed) (hknown : v.known = u.known)
    {record : Part} (hsame : ∀ p, u.known[record.offset.toNat]? = some p → p = record) :
    Grown u (v.account record) where
  keyed h := (hknown.symm ▸ h : v.known.Keyed).note record
  known_of_known offset p h := by
    show (v.known.note record)[offset]? = some p
    rw [PartIndex.getElem?_note, hknown]
    split
    next hoffset => rw [hsame p (hoffset ▸ h)]
    next => exact h
  counted := by
    refine ⟨[record], congrArg (· ++ [record]) hcommitted, List.forall_mem_singleton.2 ?_⟩
    show (v.known.note record)[record.offset.toNat]? = some record
    rw [PartIndex.getElem?_note, if_pos rfl]

theorem trans (h : Grown u v) (h' : Grown v w) : Grown u w where
  keyed := h'.keyed ∘ h.keyed
  known_of_known offset p hknown := h'.known_of_known offset p (h.known_of_known offset p hknown)
  counted := by
    obtain ⟨more, hmore, hcounted⟩ := h.counted
    obtain ⟨more', hmore', hcounted'⟩ := h'.counted
    refine ⟨more ++ more', by rw [hmore', hmore, List.append_assoc], ?_⟩
    exact List.forall_mem_append.2 ⟨fun p hp => h'.known_of_known _ p (hcounted p hp), hcounted'⟩

/-- The records that counted before still have one of their offset that is known. -/
theorem indexed (h : Grown u w) (hu : u.Indexed) : w.Indexed where
  keyed := h.keyed hu.keyed
  isSome_known p hp := by
    obtain ⟨more, hmore, hcounted⟩ := h.counted
    rcases List.mem_append.1 (hmore ▸ hp) with hp | hp
    · obtain ⟨q, hq⟩ := Option.isSome_iff_exists.1 (hu.isSome_known p hp)
      rw [h.known_of_known _ q hq]
      rfl
    · rw [hcounted p hp]
      rfl

/-- What counts and what is known agree afterwards exactly if they have agreed before. -/
theorem agrees_iff (h : Grown u w) (hu : u.Indexed) : w.Agrees ↔ u.Agrees := by
  obtain ⟨more, hmore, hcounted⟩ := h.counted
  rw [Agrees, hmore, List.forall_mem_append]
  constructor
  · rintro ⟨hbefore, -⟩ p hp
    obtain ⟨q, hq⟩ := Option.isSome_iff_exists.1 (hu.isSome_known p hp)
    rw [hq, ← hbefore p hp, h.known_of_known _ q hq]
  · exact fun hbefore => ⟨fun p hp => h.known_of_known _ p (hbefore p hp), hcounted⟩

end Grown

/-- A turn replaces nothing that is known, and what it counts is known. -/
theorem Turn.grown {out : Except (TransferError ε) Unit × Uploader}
    (h : Turn session u events out) (hkeyed : u.known.Keyed)
    (hplace : ∀ event ∈ events, event.InPlace) : Grown u out.2 := by
  have hsought := next_sought (ε := ε) u session.partSize.toNat
  have hframe : ∀ {result : Except (TransferError ε) Next} {v : Uploader},
      u.next session.partSize.toNat = (result, v) →
      v.committed = u.committed ∧ v.known = u.known := by
    intro result v hnext
    rw [hnext] at hsought
    rw [hsought.frame]
    exact ⟨rfl, rfl⟩
  -- A part that is hashed leaves the records alone.
  have hhashed : ∀ {part : InFlight} {v : Uploader},
      u.next (ε := ε) session.partSize.toNat = (.ok (.atHand part), v) →
      (v.hash part).committed = u.committed ∧ (v.hash part).known = u.known := by
    intro part v hnext
    rw [committed_hash, known_hash]
    exact hframe hnext
  cases h with
  | failed hnext => exact .of_eq (hframe hnext).1 (hframe hnext).2
  | @recalled record v hnext =>
    obtain ⟨hcommitted, hknown⟩ := hframe hnext
    rw [hnext] at hsought
    cases hsought with
    | recorded _ hrecord =>
      refine .account hcommitted hknown fun p hp => ?_
      rw [hkeyed _ _ hrecord, hrecord] at hp
      exact (Option.some.inj hp).symm
  | @reused part record v hnext hrecord =>
    obtain ⟨hcommitted, hknown⟩ := hhashed hnext
    rw [hknown] at hrecord
    refine .account hcommitted hknown fun p hp => ?_
    rw [hkeyed _ _ hrecord, hrecord] at hp
    exact (Option.some.inj hp).symm
  | @stored part record v hnext hunknown =>
    obtain ⟨hcommitted, hknown⟩ := hhashed hnext
    rw [hknown] at hunknown
    have hoffset : record.offset.toNat = part.offset := hplace _ List.mem_cons_self
    refine .account hcommitted hknown fun p hp => ?_
    rw [hoffset, hunknown] at hp
    cases hp
  | held hnext =>
    obtain ⟨hcommitted, hknown⟩ := hhashed hnext
    exact .of_eq hcommitted hknown

/-- The loop replaces nothing that is known, and what it counts is known. -/
theorem Turns.grown {count : Nat} {out : Except (TransferError ε) Unit × Uploader}
    (h : Turns session count u events out) (hkeyed : u.known.Keyed)
    (hplace : ∀ event ∈ events, event.InPlace) : Grown u out.2 := by
  induction h with
  | done => exact .of_eq rfl rfl
  | failed hturn => exact hturn.grown hkeyed hplace
  | more hturn _ ih =>
    obtain ⟨hplace, hplace'⟩ := List.forall_mem_append.1 hplace
    have hgrown := hturn.grown hkeyed hplace
    exact hgrown.trans (ih (hgrown.keyed hkeyed) hplace')

theorem Finish.grown {out : Except (TransferError ε) RemoteFile × Uploader}
    (h : Finish session u events out) (hkeyed : u.known.Keyed)
    (hplace : ∀ event ∈ events, event.InPlace) : Grown u out.2 := by
  cases h with
  | misfit => exact .of_eq rfl rfl
  | stopped _ hturns => exact hturns.grown hkeyed hplace
  | refused _ hturns => exact hturns.grown hkeyed (List.forall_mem_append.1 hplace).1
  | committed _ hturns => exact hturns.grown hkeyed (List.forall_mem_append.1 hplace).1

/-- An attempt replaces nothing that is known when its loop begins, and what it counts is known. -/
theorem Attempted.grown {kind : Attempt} {out : Except (TransferError ε) RemoteFile × Uploader}
    (h : Attempted session u kind events out) (hu : u.Indexed)
    (hplace : ∀ event ∈ events, event.InPlace) : Grown (u.entering kind events) out.2 := by
  cases h with
  | aborted => cases kind <;> exact .of_eq rfl rfl
  | start _ hfinish => exact hfinish.grown hu.keyed hplace
  | unlisted => exact .of_eq rfl rfl
  | resume _ hfinish =>
    exact hfinish.grown (indexed_adopt u _).keyed (List.forall_mem_cons.1 hplace).2

/-! ## Where they part -/

/-- The records that count, after these events: what is known for the offset of one is that record,
or a listing has named the offset more than once, and it is the first that is listed and the known
one is the last. -/
structure Explained (events : List (Transfer.Event ε)) (u : Uploader) : Prop where
  indexed : u.Indexed
  counted : ∀ p ∈ u.committed, ∃ q, u.known[p.offset.toNat]? = some q ∧
    (q = p ∨ ∃ listing, .listed (.ok listing) ∈ events ∧
      (listing.find? fun r => r.offset.toNat = p.offset.toNat) = some p ∧
      (listing.reverse.find? fun r => r.offset.toNat = p.offset.toNat) = some q)

/-- What the loop counts is known. -/
theorem Explained.of_grown (h : Explained events u) (hgrown : Grown u w) : Explained events w where
  indexed := hgrown.indexed h.indexed
  counted p hp := by
    obtain ⟨more, hmore, hcounted⟩ := hgrown.counted
    rcases List.mem_append.1 (hmore ▸ hp) with hp | hp
    · obtain ⟨q, hq, horigin⟩ := h.counted p hp
      exact ⟨q, hgrown.known_of_known _ q hq, horigin⟩
    · exact ⟨p, hcounted p hp, .inl rfl⟩

/-- Of the listed records of one offset the first counts, and the last is known. -/
theorem explained_adopt (u : Uploader) {listing : List Part}
    (hlisted : .listed (.ok listing) ∈ events) : Explained events (u.adopt listing) where
  indexed := indexed_adopt u listing
  counted p hp := by
    obtain ⟨q, hq⟩ := Option.isSome_iff_exists.1 ((indexed_adopt u listing).isSome_known p hp)
    refine ⟨q, hq, .inr ⟨listing, hlisted, find?_of_mem_reconcile hp, ?_⟩⟩
    rw [← PartIndex.getElem?_ofListing]
    exact hq

/-- A move keeps the records explained. -/
theorem Moved.explained {told : List (Transfer.Event ε)} {m : Move}
    (h : Moved session u m events w) (htold : ∀ event ∈ events, event ∈ told ∧ event.InPlace)
    (hu : Explained told u) : Explained told w := by
  have hgiveUp : Explained told u.giveUp := ⟨⟨hu.indexed.keyed, nofun⟩, nofun⟩
  cases h with
  | @attempt kind _ _ result h =>
    refine Explained.of_grown ?_ (h.grown hu.indexed fun event hmem => (htold event hmem).2)
    cases h with
    | aborted => cases kind <;> exact hu
    | start => exact hu
    | unlisted => exact hu
    | resume => exact explained_adopt u (htold _ List.mem_cons_self).1
  | abortFailed => exact hgiveUp
  | aborted => exact hgiveUp

/-- When a listing has been taken over, what counts and what is known agree exactly if each record
that counts is the last that is listed for its offset. -/
theorem agrees_adopt_iff (u : Uploader) (listing : List Part) :
    (u.adopt listing).Agrees ↔ ∀ p ∈ (reconcile u.slot.offset? listing).committed,
      (listing.reverse.find? fun q => q.offset.toNat = p.offset.toNat) = some p := by
  simp only [← PartIndex.getElem?_ofListing]
  exact Iff.rfl

/-- After any attempts and aborts, over sessions that list what they like and name the offsets of
the parts that they are sent: for each record that counts one of its offset is known, and it is the
same unless a listing has named the offset more than once; then the first that is listed counts and
the last is known. A start leaves it at that. A resumption makes the two agree if no part has been
in flight; if one has, they agree exactly if each record that is taken over is the last that is
listed for its offset. -/
theorem agreement_is_decided_by_listing {fileSize : UInt64} {reader : Reader}
    {moves : List (Session × Move)} {before : List (Transfer.Event ε)}
    (h : History (playOver moves (.ofReader reader fileSize)) before u)
    (hplace : ∀ event ∈ before, event.InPlace) :
    (∀ p ∈ u.committed, ∃ q, u.known[p.offset.toNat]? = some q ∧
      (q = p ∨ ∃ listing, .listed (.ok listing) ∈ before ∧
        (listing.find? fun r => r.offset.toNat = p.offset.toNat) = some p ∧
        (listing.reverse.find? fun r => r.offset.toNat = p.offset.toNat) = some q)) ∧
    ∀ (session : Session) (after : List (Transfer.Event ε))
      (result : Except (TransferError ε) RemoteFile) (w : Uploader),
      (∀ event ∈ after, event.InPlace) →
      (History (u.start session) after (result, w) → (w.Agrees ↔ u.Agrees)) ∧
      ∀ listing,
        History (u.resume session) (Transfer.Event.listed (.ok listing) :: after) (result, w) →
        (u.slot = .idle → w.Agrees) ∧
        (w.Agrees ↔ ∀ p ∈ (reconcile u.slot.offset? listing).committed,
          (listing.reverse.find? fun q => q.offset.toNat = p.offset.toNat) = some p) := by
  have hu : Explained before u := by
    refine keeps_playOver_of_told (fun event => event ∈ before ∧ event.InPlace) (Explained before)
      (fun m _ v w events hmoved htold hv => hmoved.explained htold hv) h
      (fun event hmem => ⟨hmem, hplace event hmem⟩) ⟨indexed_ofReader reader fileSize, nofun⟩
  refine ⟨hu.counted, fun session after result w hafter =>
    ⟨fun hstart => ?_, fun listing hresume => ?_⟩⟩
  · have hattempted : Attempted session u .start after (result, w) := history_attempt_iff.1 hstart
    exact (hattempted.grown hu.indexed hafter).agrees_iff hu.indexed
  · have hattempted : Attempted session u .resume _ (result, w) := history_attempt_iff.1 hresume
    have hgrown := hattempted.grown hu.indexed (List.forall_mem_cons.2 ⟨trivial, hafter⟩)
    have hagrees : w.Agrees ↔ _ :=
      (hgrown.agrees_iff (indexed_adopt u listing)).trans (agrees_adopt_iff u listing)
    refine ⟨fun hidle => hagrees.2 ?_, hagrees⟩
    rw [hidle]
    exact nofun

/-- The second of two parts is sent in vain, and the listing then has two records of the first. The
first of them counts and the last is known. The commit fails, and the same listing comes again: now
that no part is in flight, the last of them counts. -/
theorem commits_either_of_two_records :
    let session : Session := ⟨"two", 2, 1⟩
    let listing : List Part := [⟨"x", 0, 1, ""⟩, ⟨"y", 0, 1, ""⟩, ⟨"z", 1, 1, ""⟩]
    let fails : Except (TransferError String) RemoteFile := .error (.session "reset")
    ∃ (before after later : List (Transfer.Event String)) (u v w : Uploader),
      History (playOver [(session, .attempt .start)] (.ofReader (.ofBytes [1, 2]) 2)) before u ∧
      u.slot = .holding ⟨1, [2]⟩ ∧
      History (u.resume session) (Transfer.Event.listed (.ok listing) :: after) (fails, v) ∧
      v.committed = [⟨"x", 0, 1, ""⟩, ⟨"z", 1, 1, ""⟩] ∧ ¬v.Agrees ∧
      History (v.resume session) (Transfer.Event.listed (.ok listing) :: later) (fails, w) ∧
      w.committed = [⟨"y", 0, 1, ""⟩, ⟨"z", 1, 1, ""⟩] ∧ w.Agrees := by
  intro session listing fails
  let x : Part := ⟨"x", 0, 1, ""⟩
  let y : Part := ⟨"y", 0, 1, ""⟩
  let z : Part := ⟨"z", 1, 1, ""⟩
  have hfits : session.Fits 2 := by decide
  have hcheck := Geometry.check_eq_ok_iff.2 hfits
  obtain ⟨u, hstart, hu⟩ := exists_interrupted hfits [1] [2] [] x (.session "reset") rfl
    (List.cons_ne_nil _ _) rfl (by decide)
  have hslot : u.slot = .holding ⟨1, [2]⟩ := hu.slot_eq
  have hthrough : u.digestedThrough = 2 := hu.through_eq
  have hstarted : Moved session (ofReader (.ofBytes [1, 2]) 2) (.attempt .start) _ u :=
    .attempt hstart
  have hbefore :
      History (playOver [(session, .attempt .start)] (.ofReader (.ofBytes [1, 2]) 2)) _ u :=
    history_do_iff.2 ⟨_, u, [], rfl, history_move_iff.2 hstarted, .done u⟩
  -- The second part has landed, so no record is missing, and the loop is over at once.
  let v : Uploader := u.adopt listing
  have hcommitted : v.committed = [x, z] := by
    simp [v, listing, x, z, adopt, hslot, Slot.offset?, Slot.part?, reconcile,
      Reconciliation.byOffset, List.mergeSort, Reconciliation.firstOfEach, Reconciliation.run,
      Part.stop]
  have hidle : v.slot = .idle := by
    simp [v, listing, adopt, hslot, Slot.offset?, Slot.part?, reconcile]
  have hall : session.totalParts.toNat ≤ v.committed.length := by
    rw [hcommitted]
    decide
  have hresume : Attempted session u .resume _ (fails, v) :=
    .resume hu.active (.refused (hu.fileSize_eq.symm ▸ hcheck) (.of_complete hall))
  -- With nothing in the slot, the records are taken from what is known, one after the other.
  let again : Uploader := v.adopt listing
  let first : Uploader := again.account y
  let w : Uploader := first.account z
  have hempty : again.committed = [] := by
    simp [again, adopt, hidle, Slot.offset?, Slot.part?, reconcile]
  have hagain : again.slot = .idle := by
    simp [again, adopt, hidle]
  have hfirst : again.next (ε := String) session.partSize.toNat = (.ok (.recorded y), again) := by
    apply next_of_known hagain
    · rw [hempty]
      exact hthrough.symm ▸ Nat.zero_lt_two
    · rw [hempty]
      show (PartIndex.ofListing listing)[0]? = some y
      cbv
  have hlast : first.next (ε := String) session.partSize.toNat = (.ok (.recorded z), first) := by
    have hone : first.committed.length = 1 := by
      rw [length_committed_account, hempty]
      rfl
    apply next_of_known (show first.slot = .idle from hagain)
    · rw [hone]
      exact hthrough.symm ▸ Nat.one_lt_two
    · rw [hone]
      show ((PartIndex.ofListing listing).note y)[1]? = some z
      cbv
  have hturns' : Turns (ε := String) session (session.totalParts.toNat - again.committed.length)
      again [first.accounted session, w.accounted session] (.ok (), w) := by
    rw [hempty]
    exact .more (.recalled hfirst) (.more (.recalled hlast) (.done w))
  have hresume' : Attempted session v .resume _ (fails, w) :=
    .resume hu.active (.refused (hu.fileSize_eq.symm ▸ hcheck) hturns')
  have hlater : History (playOver [(session, .attempt .start), (session, .attempt .resume)]
      (.ofReader (.ofBytes [1, 2]) 2)) _ v :=
    history_do_iff.2 ⟨_, u, _, rfl, history_move_iff.2 hstarted,
      history_do_iff.2 ⟨_, v, [], rfl, history_move_iff.2 (.attempt hresume), .done v⟩⟩
  have hplace : ∀ event ∈ [Transfer.Event.sent (ε := String) [1] 0 2 (.ok x),
      u.accounted session, .sent [2] 1 2 (.error (.session "reset"))], event.InPlace :=
    List.forall_mem_cons.2
      ⟨rfl, List.forall_mem_cons.2 ⟨trivial, List.forall_mem_singleton.2 trivial⟩⟩
  have hreports : ∀ event ∈ [Transfer.Event.reported (v.progress session .committing),
      .committed v.digest.finish v.committed fails], event.InPlace :=
    List.forall_mem_cons.2 ⟨trivial, List.forall_mem_singleton.2 trivial⟩
  have hreports' : ∀ event ∈ [first.accounted session, w.accounted session] ++
      [Transfer.Event.reported (w.progress session .committing),
        .committed w.digest.finish w.committed fails], event.InPlace :=
    List.forall_mem_cons.2 ⟨trivial, List.forall_mem_cons.2 ⟨trivial,
      List.forall_mem_cons.2 ⟨trivial, List.forall_mem_singleton.2 trivial⟩⟩⟩
  obtain ⟨-, hdecided⟩ := agreement_is_decided_by_listing hbefore hplace
  obtain ⟨-, hdecided'⟩ := agreement_is_decided_by_listing hlater
    (List.forall_mem_append.2 ⟨hplace, List.forall_mem_cons.2 ⟨trivial, hreports⟩⟩)
  have hagrees := (hdecided session _ _ _ hreports).2 listing (history_attempt_iff.2 hresume)
  have hagrees' := (hdecided' session _ _ _ hreports').2 listing (history_attempt_iff.2 hresume')
  refine ⟨_, _, _, u, v, w, hbefore, hslot, history_attempt_iff.2 hresume, hcommitted, ?_,
    history_attempt_iff.2 hresume', ?_, hagrees'.1 hidle⟩
  · intro hv
    have hlast : (listing.reverse.find? fun q => q.offset.toNat = x.offset.toNat) = some x :=
      hagrees.2.1 hv x (hcommitted.symm ▸ List.mem_cons_self : x ∈ v.committed)
    exact absurd hlast (by decide)
  · show again.committed ++ [y] ++ [z] = _
    rw [hempty]
    rfl

end Uploader

end ResumableUpload
