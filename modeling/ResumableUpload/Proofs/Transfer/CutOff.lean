import ResumableUpload.Proofs.Transfer.Lost
import ResumableUpload.Proofs.Transfer.Reporting

/-!
# Streams that end inside a part

A part that is read in vain, because the stream ends inside it, is not hashed, but the stream has
moved on into the part. From then on no attempt can say again what has happened: when it comes to
the part, it finds the stream ahead and says that the part is unavailable, as if it had been read
and hashed. If the stream ends at the begin of the part it does not move, and every attempt says
again that it is too short.

Main statement: a part that is said to be unavailable has been hashed by an earlier attempt exactly
if none of them has found that the stream ends in it (`unavailable_part_is_hashed_iff`). What all
attempts keep is in `Uploader.Stands`.
-/

namespace ResumableUpload

variable {ε : Type}

/-- The error is one of the session itself. -/
def TransferError.IsOfSession : TransferError ε → Prop
  | .session _ => True
  | _ => False

/-- If the session fails, it says that it is the session that fails. -/
def Transfer.Event.FailsAsSession : Transfer.Event ε → Prop
  | ⟨.listParts, .error e⟩ => e.IsOfSession
  | ⟨.sendPart _ _ _, .error e⟩ => e.IsOfSession
  | ⟨.commit _ _, .error e⟩ => e.IsOfSession
  | _ => True

/-- A failure of the session blames no part. -/
theorem Transfer.Event.FailsAsSession.not_blamesPart {event : Transfer.Event ε}
    (h : event.FailsAsSession) : ¬event.BlamesPart := by
  intro hblames
  unfold BlamesPart at hblames
  split at hblames
  · exact h
  · exact h
  · exact h
  · exact hblames

namespace Uploader

open Program (History history_do_iff history_pure_iff)

variable {session : Session} {l : Layout} {k j : Nat} {u v w : Uploader}
  {events : List (Transfer.Event ε)} {e : TransferError ε} {offset : Nat}

/-! ## Where an error comes from -/

/-- The number of parts that are hashed is determined. -/
theorem Sound.unique (h : u.Sound l k) (h' : u.Sound l j) : k = j :=
  h.hashedParts_eq.symm.trans h'.hashedParts_eq

/-- A session with the parts of the layout fits the file. -/
theorem Sound.fits (h : u.Sound l k) (hsize : l.partSize = session.partSize.toNat)
    (hcount : l.count = session.totalParts.toNat) : session.Fits u.fileSize := by
  rw [h.fileSize_eq]
  exact ⟨hsize ▸ l.partSize_pos, hsize ▸ hcount.symm⟩

/-- A turn of the loop, in step, that comes to nothing. -/
structure Failing (l : Layout) (v : Uploader) (e : TransferError ε) (w : Uploader) : Prop where
  inStep : v.InStep l.partSize
  next : v.committed.length < l.count
  drawn : ∃ j, v.Sound l j ∧ Drawn l j v (.error e, w)

/-- If the loop fails, the session has failed, or there was nothing to account for a part. -/
theorem Turns.failing (hsize : l.partSize = session.partSize.toNat) {count : Nat}
    {out : Except (TransferError ε) Unit × Uploader} (h : Turns session count u events out)
    (hcount : count ≤ l.count - u.committed.length) (hs : u.Sound l k)
    (hstep : u.InStep l.partSize) (hown : ∀ event ∈ events, event.FailsAsSession)
    (hout : out = (.error e, w)) : e.IsOfSession ∨ ∃ v, Failing l v e w := by
  induction h generalizing k with
  | done => cases hout
  | failed hturn =>
    cases hout
    have hnext : _ < l.count := Nat.lt_of_sub_pos (Nat.lt_of_lt_of_le (Nat.succ_pos _) hcount)
    cases hturn.step hs hsize hnext with
    | held => exact .inl (hown _ List.mem_cons_self)
    | failed hdrawn => exact .inr ⟨_, hstep, hnext, k, hs, hdrawn⟩
  | more hturn _ ih =>
    have hnext := Nat.lt_of_sub_pos (Nat.lt_of_lt_of_le (Nat.succ_pos _) hcount)
    have hone := hturn.step hs hsize hnext
    have hlength := hturn.length_committed
    obtain ⟨j, _, hs'⟩ := hone.sound hs
    obtain ⟨-, hown'⟩ := List.forall_mem_append.1 hown
    exact ih (by omega) hs' (hone.inStep hs hstep) hown' hout

/-- If the loop or the commit fails, the session has failed, or there was nothing to account for a
part. -/
theorem Finish.failing (hsize : l.partSize = session.partSize.toNat)
    (hcount : l.count = session.totalParts.toNat) (hfits : session.Fits u.fileSize)
    (h : Finish session u events (.error e, w)) (hs : u.Sound l k) (hstep : u.InStep l.partSize)
    (hown : ∀ event ∈ events, event.FailsAsSession) :
    e.IsOfSession ∨ ∃ v, Failing l v e w := by
  cases h with
  | misfit hcheck =>
    rw [Geometry.check_eq_ok_iff.2 hfits] at hcheck
    cases hcheck
  | stopped _ hturns => exact hturns.failing hsize (by rw [hcount]) hs hstep hown rfl
  | refused =>
    obtain ⟨-, hown'⟩ := List.forall_mem_append.1 hown
    exact .inl (hown' _ (List.mem_cons_of_mem _ (List.mem_singleton_self _)))

/-- If the stream turns out to be too short, it ends inside the part behind those that are hashed,
or where that part begins. -/
theorem Failing.truncated (h : Failing (ε := ε) l v (.truncatedStream offset) w) :
    offset = w.digestedThrough ∧
      ∃ k, w.Sound l k ∧ l.content.length < l.reach (k + 1) := by
  obtain ⟨-, hnext, k, hs, hdrawn⟩ := h
  cases hdrawn with
  | torn _ hall hshort hsound =>
    subst hall
    refine ⟨?_, _, hsound, hshort⟩
    rw [hsound.through_eq, l.reach_of_lt hnext]

/-- A part that is said to be unavailable begins no later than what is not hashed. -/
theorem Failing.unavailable_le (h : Failing (ε := ε) l v (.partUnavailable offset) w) :
    offset ≤ w.digestedThrough := by
  obtain ⟨hstep, hnext, k, hs, hdrawn⟩ := h
  have hle : v.committed.length * l.partSize ≤ v.digestedThrough := by
    have hcounted := hstep.1
    rw [hs.hashedParts_eq] at hcounted
    rw [hs.through_eq, ← l.reach_of_lt hnext]
    exact l.reach_mono hcounted
  cases hdrawn with
  | missing => exact hle
  | stranded => exact hle

/-! ## What attempts keep -/

/-- What is true after attempts that came out in this way. If the stream was too short for a part,
that part is the next one, and it stays so. If the stream stands elsewhere than at the end of what
is hashed, an attempt has found it too short. -/
structure Stands (l : Layout) (k : Nat) (results : List (Except (TransferError ε) RemoteFile))
    (u : Uploader) : Prop where
  sound : u.Sound l k
  tidy : u.Tidy l
  short : ∀ offset, .error (.truncatedStream offset) ∈ results →
    offset = u.digestedThrough ∧ l.content.length < l.reach (k + 1)
  level : u.aborted = false → .error (.truncatedStream u.digestedThrough) ∉ results → u.Level

section Stands

variable {kind : Attempt} {result : Except (TransferError ε) RemoteFile}
  {results : List (Except (TransferError ε) RemoteFile)}

theorem stands_ofReader (l : Layout) :
    Stands (ε := ε) l 0 [] (ofReader l.stream l.fileSize) where
  sound := sound_ofReader l
  tidy := tidy_ofReader l
  short := by simp
  level := fun _ _ => level_ofReader l.stream l.fileSize

theorem Level.entering (h : u.Level) : (u.entering kind events).Level := by
  rw [Uploader.entering.eq_def]
  split
  · exact h.adopt _
  · exact h

/-- An upload that has been given up says so, and stays as it is. -/
theorem Attempted.active_or (h : Attempted session u kind events (result, w)) :
    u.aborted = false ∨ result = .error .aborted ∧ w = u := by
  cases h with
  | aborted => exact .inr ⟨rfl, rfl⟩
  | start hactive => exact .inl hactive
  | unlisted hactive => exact .inl hactive
  | resume hactive => exact .inl hactive

/-- The events of the loop are events of the attempt. -/
theorem Attempted.exists_finish (h : Attempted session u kind events (result, w))
    (hactive : u.aborted = false) :
    (∃ e, result = .error e ∧ events = [.listed (.error e)]) ∨
      ∃ rest, (∀ event ∈ rest, event ∈ events) ∧
        Finish session (u.entering kind events) rest (result, w) := by
  rcases h.ends_or_finish with ⟨e, hresult, ⟨habort, -⟩ | ⟨-, hevents⟩⟩ |
    ⟨opening, rest, hevents, -, hfinish⟩
  · rw [hactive] at habort
    cases habort
  · exact .inl ⟨e, hresult, hevents⟩
  · exact .inr ⟨rest, fun event hmem => hevents ▸ List.mem_append_right _ hmem, hfinish⟩

/-- If an attempt fails, the session has failed, or there was nothing to account for a part. -/
theorem Attempted.failing (hsize : l.partSize = session.partSize.toNat)
    (hcount : l.count = session.totalParts.toNat)
    (h : Attempted session u kind events (.error e, w)) (hactive : u.aborted = false)
    (hs : u.Sound l k) (htidy : u.Tidy l)
    (htold : ∀ event ∈ events, event.WellFormed l.size l.partSize)
    (hown : ∀ event ∈ events, event.FailsAsSession) :
    e.IsOfSession ∨ ∃ v, Failing l v e w := by
  rcases h.exists_finish hactive with ⟨_, ⟨⟩, rfl⟩ | ⟨rest, hrest, hfinish⟩
  · exact .inl (hown _ List.mem_cons_self)
  · have hs' : (u.entering kind events).Sound l k := hs.entering kind
    exact hfinish.failing hsize hcount (hs'.fits hsize hcount) hs' (htidy.entering hs htold).inStep
      fun event hmem => hown event (hrest event hmem)

/-- A stream that is too short for the next part keeps the digest where it is. -/
theorem Sound.eq_of_short (hs : u.Sound l k) (hs' : w.Sound l j)
    (hle : u.digestedThrough ≤ w.digestedThrough) (hshort : l.content.length < l.reach (k + 1)) :
    j = k ∧ w.digestedThrough = u.digestedThrough := by
  have hjk : j ≤ k := by
    by_contra hlt
    have hmono : l.reach (k + 1) ≤ l.reach j := l.reach_mono (Nat.lt_of_not_le hlt)
    have hlength := hs'.length_le
    omega
  have hsame : w.digestedThrough = u.digestedThrough := by
    have hmono := l.reach_mono hjk
    have hthrough := hs.through_eq
    have hthrough' := hs'.through_eq
    omega
  refine ⟨?_, hsame⟩
  rw [← hs.hashedParts_eq, ← hs'.hashedParts_eq, hashedParts, hashedParts, hsame]

/-- Then the stream does not reach the end of the part at which the digest ends. -/
theorem Sound.length_lt_of_short (hs : u.Sound l k) (hshort : l.content.length < l.reach (k + 1)) :
    l.content.length <
      u.digestedThrough + Geometry.partLength l.size l.partSize u.digestedThrough := by
  have hk : k < l.count := by
    have hlength := hs.length_le
    have hcount := hs.count_le
    have hend := l.reach_le_size (k := k + 1)
    by_contra hge
    obtain rfl : k = l.count := by omega
    rw [l.reach_count] at hlength
    omega
  rwa [l.reach_succ hk, Layout.partLength, ← l.reach_of_lt hk, ← hs.through_eq] at hshort

/-- An attempt leaves an upload sound and tidy, and what has been hashed stays hashed. -/
theorem Attempted.sound_and_tidy (hsize : l.partSize = session.partSize.toNat)
    (hcount : l.count = session.totalParts.toNat)
    (h : Attempted session u kind events (result, w)) (hs : u.Sound l k) (htidy : u.Tidy l)
    (htold : ∀ event ∈ events, event.WellFormed l.size l.partSize) :
    ∃ j, w.Sound l j ∧ w.Tidy l ∧ u.digestedThrough ≤ w.digestedThrough := by
  obtain ⟨⟨⟨j, hs'⟩, htidy'⟩, -⟩ :=
    (kept_tidy hsize hcount).of_attempted h ⟨⟨k, hs⟩, htidy⟩ htold
  obtain ⟨⟨-, hle⟩, -⟩ := (kept_faithful session u.digestedThrough).of_attempted h
    ⟨hs.faithful, Nat.le_refl _⟩ fun _ _ => trivial
  exact ⟨j, hs', htidy', hle⟩

/-- An attempt keeps where an upload stands, and adds how it came out. -/
theorem Stands.attempt (hsize : l.partSize = session.partSize.toNat)
    (hcount : l.count = session.totalParts.toNat) (h : Stands l k results u)
    (hattempted : Attempted session u kind events (result, w))
    (htold : ∀ event ∈ events, event.WellFormed l.size l.partSize)
    (hown : ∀ event ∈ events, event.FailsAsSession) :
    ∃ j, Stands l j (results ++ [result]) w := by
  obtain ⟨j, hs', htidy', hle⟩ := hattempted.sound_and_tidy hsize hcount h.sound h.tidy htold
  have hnew : ∀ offset, result = .error (.truncatedStream offset) →
      offset = w.digestedThrough ∧ l.content.length < l.reach (j + 1) := by
    rintro offset rfl
    obtain hactive | ⟨⟨⟩, -⟩ := hattempted.active_or
    rcases hattempted.failing hsize hcount hactive h.sound h.tidy htold hown with
      hsession | ⟨v, hfailing⟩
    · exact hsession.elim
    · obtain ⟨hoffset, i, hs'', hshort⟩ := hfailing.truncated
      rw [hs'.unique hs'']
      exact ⟨hoffset, hshort⟩
  have hold : ∀ offset, .error (.truncatedStream offset) ∈ results →
      offset = w.digestedThrough ∧ l.content.length < l.reach (j + 1) := by
    intro offset hmem
    obtain ⟨hoffset, hshort⟩ := h.short offset hmem
    obtain ⟨rfl, hsame⟩ := h.sound.eq_of_short hs' hle hshort
    exact ⟨hoffset.trans hsame.symm, hshort⟩
  refine ⟨j, hs', htidy', ?_, ?_⟩
  · intro offset hmem
    rcases List.mem_append.1 hmem with hmem | hmem
    · exact hold offset hmem
    · exact hnew offset (List.mem_singleton.1 hmem).symm
  · intro hactive' hfull
    rw [List.mem_append, not_or, List.mem_singleton] at hfull
    have hbefore : u.aborted = false := by
      rcases hattempted.active_or with hactive | ⟨-, rfl⟩
      · exact hactive
      · exact hactive'
    have hnone : .error (.truncatedStream u.digestedThrough) ∉ results := by
      intro hmem
      rw [(hold _ hmem).1] at hmem
      exact hfull.1 hmem
    apply hattempted.level h.sound.faithful (h.level hbefore hnone)
    rintro offset rfl
    exact hfull.2 (by rw [(hnew offset rfl).1])

/-- Attempts keep where an upload stands, and add how they came out. -/
theorem Stands.attemptAll (hsize : l.partSize = session.partSize.toNat)
    (hcount : l.count = session.totalParts.toNat) {kinds : List Attempt}
    {earlier : List (Except (TransferError ε) RemoteFile)} (h : Stands l k earlier u)
    (hattempts : History (attemptAll session kinds u) events (results, w))
    (htold : ∀ event ∈ events, event.WellFormed l.size l.partSize)
    (hown : ∀ event ∈ events, event.FailsAsSession) :
    ∃ j, Stands l j (earlier ++ results) w := by
  induction kinds generalizing u k earlier events results with
  | nil =>
    obtain ⟨-, rfl, rfl⟩ := history_attemptAll_nil_iff.1 hattempts
    exact ⟨k, by rwa [List.append_nil]⟩
  | cons kind kinds ih =>
    obtain ⟨_, _, result, v, others, rfl, rfl, hfirst, hlater⟩ :=
      history_attemptAll_cons_iff.1 hattempts
    obtain ⟨htold, htold'⟩ := List.forall_mem_append.1 htold
    obtain ⟨hown, hown'⟩ := List.forall_mem_append.1 hown
    obtain ⟨i, hi⟩ := h.attempt hsize hcount hfirst htold hown
    obtain ⟨j, hj⟩ := ih hi hlater htold' hown'
    exact ⟨j, by rwa [List.append_assoc] at hj⟩

/-- If the stream is too short for the next part, a part that is said to be unavailable begins no
later than this one. -/
theorem Sound.unavailable_le_of_short (hs : u.Sound l k)
    (hsize : l.partSize = session.partSize.toNat) (hcount : l.count = session.totalParts.toNat)
    (hactive : u.aborted = false) (htidy : u.Tidy l)
    (hshort : l.content.length < l.reach (k + 1))
    (h : Attempted session u kind events (.error (.partUnavailable offset), w))
    (htold : ∀ event ∈ events, event.WellFormed l.size l.partSize)
    (hown : ∀ event ∈ events, event.FailsAsSession) : offset ≤ u.digestedThrough := by
  obtain ⟨j, hs', -, hle⟩ := h.sound_and_tidy hsize hcount hs htidy htold
  obtain ⟨-, hsame⟩ := hs.eq_of_short hs' hle hshort
  rw [← hsame]
  rcases h.failing hsize hcount hactive hs htidy htold hown with hsession | ⟨v, hfailing⟩
  · exact hsession.elim
  · exact hfailing.unavailable_le

/-- A level upload says of no part that it is unavailable but of one that has been hashed. -/
theorem Level.unavailable_lt (hsize : l.partSize = session.partSize.toNat)
    (hcount : l.count = session.totalParts.toNat) (hl : u.Level) (hs : u.Sound l k)
    (htidy : u.Tidy l)
    (h : Attempted session u kind events (.error (.partUnavailable offset), w))
    (htold : ∀ event ∈ events, event.WellFormed l.size l.partSize)
    (hown : ∀ event ∈ events, event.FailsAsSession) : offset < u.digestedThrough := by
  rcases h.exists_finish hl.active with ⟨_, ⟨⟩, rfl⟩ | ⟨rest, hrest, hfinish⟩
  · exact (hown _ List.mem_cons_self).elim
  · have hs' : (u.entering kind events).Sound l k := hs.entering kind
    have htidy' : (u.entering kind events).Tidy l := htidy.entering hs htold
    have hresuming : (u.entering kind events).Resuming l k :=
      ⟨hs', htidy'.inStep, hl.entering, fun offset p hp => (htidy'.known offset p hp).1⟩
    have hreports := hfinish.reports hsize (hs'.fits hsize hcount) hcount hresuming
      fun event hmem => (hown event (hrest event hmem)).not_blamesPart
    generalize hresult : (Except.error (.partUnavailable offset) :
      Except (TransferError ε) RemoteFile) = result at hreports
    cases hreports with
    | @first i hleast =>
      cases hresult
      have hi : i < k := hleast.1.2.1
      rw [hs.through_eq, l.mul_lt_reach_iff (Nat.lt_of_lt_of_le hi hs.count_le)]
      exact hi
    | none _ hother => exact absurd hresult.symm (hother offset)

/-- A stream that stands elsewhere than at the end of what is hashed has ended inside the next
part. -/
theorem Sound.lt_length_of_not_level (hs : u.Sound l k) (hactive : u.aborted = false)
    (hl : ¬u.Level) : u.digestedThrough < l.content.length := by
  by_contra hge
  refine hl ⟨hactive, fun s hcontent => ?_⟩
  rw [hs.through_eq] at hge ⊢
  cases (hs.source s hcontent).2 with
  | before hposition => exact hposition
  | inside hlow _ hend => omega

end Stands

/-- After any attempts over a session that fits, whose listings name nothing but parts of the file,
whose records of parts that it has taken name what it was sent, and whose failures are its own: if
an attempt says that a part is unavailable, then an earlier one has hashed the part exactly if none
has found that the stream ends in it. If one has, the part is the first that is not hashed, and
only some of its bytes are in the stream. -/
theorem unavailable_part_is_hashed_iff {fileSize : UInt64} (hfits : session.Fits fileSize)
    {reader : Reader} {kinds : List Attempt} {before : List (Transfer.Event ε)}
    {results : List (Except (TransferError ε) RemoteFile)}
    (hbefore : History (attemptAll session kinds (.ofReader reader fileSize)) before (results, u))
    {kind : Attempt}
    (h : History (u.attempt session kind) events (.error (.partUnavailable offset), w))
    (htold : ∀ event ∈ before ++ events,
      event.WellFormed fileSize.toNat session.partSize.toNat)
    (hown : ∀ event ∈ before ++ events, event.FailsAsSession) :
    (offset < u.digestedThrough ↔ .error (.truncatedStream offset) ∉ results) ∧
    (.error (.truncatedStream offset) ∈ results →
      offset = u.digestedThrough ∧ offset < reader.content.length ∧
      reader.content.length <
        offset + Geometry.partLength fileSize.toNat session.partSize.toNat offset) := by
  let l : Layout := hfits.layout reader
  have hsize : l.partSize = session.partSize.toNat := rfl
  have hcount : l.count = session.totalParts.toNat := hfits.2.symm
  obtain ⟨htold, htold'⟩ := List.forall_mem_append.1 htold
  obtain ⟨hown, hown'⟩ := List.forall_mem_append.1 hown
  obtain ⟨k, hstands⟩ :=
    (stands_ofReader l).attemptAll hsize hcount hbefore htold hown
  rw [List.nil_append] at hstands
  have hattempted := history_attempt_iff.1 h
  obtain hactive | ⟨⟨⟩, -⟩ := hattempted.active_or
  by_cases hl : u.Level
  · -- The part has been hashed, and no stream was too short for a part like that.
    have hlt : offset < u.digestedThrough :=
      hl.unavailable_lt hsize hcount hstands.sound hstands.tidy hattempted htold' hown'
    have hnone : .error (.truncatedStream offset) ∉ results := fun hmem =>
      absurd (hstands.short offset hmem).1 (Nat.ne_of_lt hlt)
    exact ⟨iff_of_true hlt hnone, fun hmem => absurd hmem hnone⟩
  · -- The stream has ended inside the first part that is not hashed, and nothing more is hashed.
    have hcut : .error (.truncatedStream u.digestedThrough) ∈ results := by
      by_contra hnone
      exact hl (hstands.level hactive hnone)
    obtain ⟨-, hshort⟩ := hstands.short _ hcut
    have hnamed : offset ≤ u.digestedThrough :=
      hstands.sound.unavailable_le_of_short hsize hcount hactive hstands.tidy hshort hattempted
        htold' hown'
    refine ⟨⟨fun hlt hmem => absurd (hstands.short offset hmem).1 (Nat.ne_of_lt hlt),
      fun hnone => Nat.lt_of_le_of_ne hnamed fun heq => hnone (heq ▸ hcut)⟩, fun hmem => ?_⟩
    obtain ⟨rfl, -⟩ := hstands.short offset hmem
    exact ⟨rfl, hstands.sound.lt_length_of_not_level hactive hl,
      hstands.sound.length_lt_of_short hshort⟩

/-- A file of four bytes in two parts, and a stream of three bytes. The first attempt says that the
stream is too short for the second part. The next one says that this part is unavailable, although
it has not been hashed. -/
theorem second_part_unavailable_before_it_is_hashed :
    let session : Session := ⟨"four", 2, 2⟩
    let reader : Reader := .ofBytes [1, 2, 3]
    session.Fits 4 ∧ ∃ (before events : List (Transfer.Event String)) (u w : Uploader),
      History (attemptAll session [.start] (.ofReader reader 4)) before
        ([.error (.truncatedStream 2)], u) ∧
      History (u.attempt session .start) events (.error (.partUnavailable 2), w) ∧
      2 = u.digestedThrough ∧ ¬2 < u.digestedThrough := by
  intro session reader
  let first : Part := ⟨"a", 0, 2, ""⟩
  have hfits : session.Fits 4 := by decide
  have hcheck := Geometry.check_eq_ok_iff.2 hfits
  let read : Uploader :=
    { ofReader reader 4 with content := some ⟨⟨[.data [3] none], [2]⟩, 2, [], false⟩ }
  let cut : Uploader :=
    { (read.hash ⟨0, [1, 2]⟩).account first with
      content := some ⟨⟨[], [1, 2, 2]⟩, 3, [], true⟩ }
  obtain ⟨v, u, m, hstored, htorn, hstranded, hsize, hcommitted, hactive⟩ :
      ∃ (v u : Uploader) (m : UInt64),
        Turn (ε := String) session (ofReader reader 4)
          [.sent [1, 2] 0 m (.ok first), v.accounted session] (.ok (), v) ∧
        Turn (ε := String) session v [] (.error (.truncatedStream 2), u) ∧
        Turn (ε := String) session u [] (.error (.partUnavailable 2), u) ∧
        u.fileSize = 4 ∧ u.committed.length = 1 ∧ u.aborted = false :=
    ⟨_, cut, _, @Turn.stored _ _ _ ⟨0, [1, 2]⟩ first read (by cbv) (by cbv), .failed (by cbv),
      .failed (by cbv), by cbv, by cbv, by cbv⟩
  have hturns : Turns session 2 (ofReader reader 4) _ _ := .more hstored (.failed htorn)
  have hstart : Attempted session (ofReader reader 4) .start _ (.error (.truncatedStream 2), u) :=
    .start rfl (.stopped hcheck hturns)
  have hbefore : History (attemptAll session [.start] (.ofReader reader 4)) _
      ([.error (.truncatedStream 2)], u) :=
    history_attemptAll_cons_iff.2
      ⟨_, _, _, u, [], rfl, rfl, hstart, history_attemptAll_nil_iff.2 ⟨rfl, rfl, rfl⟩⟩
  have hloop : Turns (ε := String) session (2 - u.committed.length) u []
      (.error (.partUnavailable 2), u) := by
    rw [hcommitted]
    exact .failed hstranded
  have hagain : History (u.attempt session .start) [] (.error (.partUnavailable 2), u) :=
    history_attempt_iff.2 (.start hactive (.stopped (hsize.symm ▸ hcheck) hloop))
  have hechoes : first.Echoes [1, 2] 0 := by decide
  obtain ⟨hiff, hnamed⟩ := unavailable_part_is_hashed_iff hfits hbefore hagain
    (by simpa [Transfer.Event.WellFormed, accounted] using hechoes)
    (by simp [Transfer.Event.FailsAsSession, accounted])
  have hcut : Except.error (.truncatedStream 2) ∈
      [(.error (.truncatedStream 2) : Except (TransferError String) RemoteFile)] :=
    List.mem_singleton_self _
  exact ⟨hfits, _, [], u, u, hbefore, hagain, (hnamed hcut).1, fun hlt => hiff.1 hlt hcut⟩

end Uploader

end ResumableUpload
