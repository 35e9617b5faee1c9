import ResumableUpload.Proofs.Transfer.Interrupted
import ResumableUpload.Proofs.Transfer.Sending
import ResumableUpload.Proofs.Transfer.Sound

/-!
# When the records keep step with the digest

The loop counts records, and hashes parts. The two are in step as long as every record that counts
is of a part that has been hashed, and the part in the slot is not among them
(`Uploader.InStep`). The loop keeps them in step. It cannot bring them into step: then it neither
reads nor hashes anything, and at best goes on from records that are known.

So whether a commit is complete is decided when the loop begins
(`commit_is_complete_iff_in_step`). A listing with records off the grid can bring them out of step.
-/

namespace ResumableUpload

/-- The first so many parts that reach `reach k` are `k`. -/
theorem Layout.partCount_reach {l : Layout} {k : Nat} (hk : k ≤ l.count) :
    Geometry.partCount (l.reach k) l.partSize = k := by
  rcases Nat.lt_or_eq_of_le hk with hlt | rfl
  · have hpos := l.partSize_pos
    rw [l.reach_of_lt hlt, Geometry.partCount, Nat.add_sub_assoc hpos, Nat.mul_comm,
      Nat.mul_add_div hpos, Nat.div_eq_of_lt (by omega), Nat.add_zero]
  · rw [l.reach_count]
    rfl

namespace Uploader

/-- The number of parts that have been hashed. -/
def hashedParts (u : Uploader) (partSize : Nat) : Nat :=
  Geometry.partCount u.digestedThrough partSize

/-- The records that count are of parts that have been hashed, and the part in the slot is behind
them. -/
def InStep (u : Uploader) (partSize : Nat) : Prop :=
  u.committed.length ≤ u.hashedParts partSize ∧
    (u.slot ≠ .idle → u.committed.length < u.hashedParts partSize)

variable {ε : Type} {session : Session} {l : Layout} {k : Nat} {u v w : Uploader}
  {events : List (Transfer.Event ε)}

theorem Sound.hashedParts_eq (h : u.Sound l k) : u.hashedParts l.partSize = k := by
  rw [hashedParts, h.through_eq, Layout.partCount_reach h.count_le]

/-- A part that has been read and is not in the slot has more behind it, if something is in step. -/
theorem InStep.lt_of_behind (h : u.InStep l.partSize) (hs : u.Sound l k) (hbehind : u.Behind l k) :
    u.committed.length < k ∧ (u.slot ≠ .idle → u.committed.length + 1 < k) := by
  rw [InStep, hs.hashedParts_eq] at h
  rw [Behind] at hbehind
  cases hslot : u.slot with
  | idle =>
    rw [hslot] at hbehind
    exact ⟨hbehind, absurd rfl⟩
  | holding part =>
    rw [hslot] at hbehind
    obtain ⟨i, rfl, rfl⟩ := hs.slot_eq part hslot
    have hlt := h.2 (by rw [hslot]; exact Slot.noConfusion)
    have hne : u.committed.length ≠ i := fun heq => hbehind (heq ▸ rfl)
    exact ⟨hlt, fun _ => by omega⟩

/-- An upload that is about to take a part at hand is in step. -/
theorem Ready.inStep_before (h : Ready l k u v) (hs : u.Sound l k) : u.InStep l.partSize := by
  rw [InStep, hs.hashedParts_eq]
  rcases h.origin with ⟨hidle, rfl⟩ | ⟨_, rfl⟩
  · exact ⟨Nat.le_refl _, absurd hidle⟩
  · exact ⟨Nat.le_succ _, fun _ => Nat.lt_succ_self _⟩

/-- Counting the record of the part that is ready keeps step. -/
theorem Ready.inStep_account (h : Ready l k u v) (record : Part) :
    (v.account record).InStep l.partSize := by
  rw [InStep, (h.sound.account record).hashedParts_eq, length_committed_account, h.committed_eq]
  exact ⟨Nat.le_refl _, absurd h.slot_eq⟩

/-- Keeping the part that is ready in the slot keeps step. -/
theorem Ready.inStep_hold (h : Ready l k u v) :
    { v with slot := .holding (l.piece u.committed.length) }.InStep l.partSize := by
  rw [InStep, h.hold.hashedParts_eq, h.committed_eq]
  exact ⟨Nat.le_succ _, fun _ => Nat.lt_succ_self _⟩

/-- A step of the loop keeps step. -/
theorem Step.inStep {out : Except (TransferError ε) Unit × Uploader}
    (h : Step session l k u events out) (hs : u.Sound l k) (hstep : u.InStep l.partSize) :
    out.2.InStep l.partSize := by
  cases h with
  | recalled hbehind =>
    obtain ⟨hlt, hslot⟩ := hstep.lt_of_behind hs hbehind
    rw [InStep, (hs.account _).hashedParts_eq, length_committed_account]
    exact ⟨hlt, hslot⟩
  | reused hready => exact hready.inStep_account _
  | stored hready => exact hready.inStep_account _
  | held hready => exact hready.inStep_hold
  | failed hdrawn =>
    have hsame := (hdrawn.sound_of_error hs).2
    rw [hsame]
    exact hstep

/-- Out of step, a step of the loop that succeeds hashes nothing and does not bring it into step. -/
theorem Step.out_of_step (h : Step session l k u events (.ok (), w)) (hs : u.Sound l k)
    (hstep : ¬u.InStep l.partSize) :
    w.Sound l k ∧ ¬w.InStep l.partSize := by
  cases h with
  | recalled =>
    refine ⟨hs.account _, fun h => hstep ?_⟩
    rw [InStep, (hs.account _).hashedParts_eq, length_committed_account] at h
    rw [InStep, hs.hashedParts_eq]
    exact ⟨Nat.le_of_lt h.1, fun hslot => Nat.lt_of_succ_lt (h.2 hslot)⟩
  | reused hready => exact absurd (hready.inStep_before hs) hstep
  | stored hready => exact absurd (hready.inStep_before hs) hstep

/-! ## The loop -/

/-- A loop that succeeds ends in step exactly if it begins in step. If it does not, it has hashed
nothing. -/
theorem Turns.inStep_iff {count : Nat} (h : Turns session count u events (.ok (), w))
    (hs : u.Sound l k) (hsize : l.partSize = session.partSize.toNat)
    (hcount : count ≤ l.count - u.committed.length) :
    w.committed.length = u.committed.length + count ∧
      ∃ j, w.Sound l j ∧ (w.InStep l.partSize ↔ u.InStep l.partSize) ∧
        (¬u.InStep l.partSize → j = k) := by
  generalize hout : (Except.ok (), w) = out at h
  induction h generalizing k with
  | done =>
    cases hout
    exact ⟨rfl, k, hs, Iff.rfl, fun _ => rfl⟩
  | failed => cases hout
  | @more _ u v _ _ _ hturn _ ih =>
    have hstep := hturn.step hs hsize (by omega)
    have hlength := hturn.length_committed
    obtain ⟨j, _, hs'⟩ := hstep.sound hs
    by_cases hin : u.InStep l.partSize
    · obtain ⟨hlast, j', hs'', hiff, _⟩ := ih hs' (by omega) hout
      have hin' : v.InStep l.partSize := hstep.inStep hs hin
      exact ⟨by omega, j', hs'', by simp only [hiff, hin', hin], absurd hin⟩
    · obtain ⟨hs', hout'⟩ := hstep.out_of_step hs hin
      obtain ⟨hlast, j', hs'', hiff, hsame⟩ := ih hs' (by omega) hout
      exact ⟨by omega, j', hs'', by simp only [hiff, hout', hin], fun _ => hsame hout'⟩

/-- A loop that has counted a record for each part is complete exactly if it began in step, or with
nothing left to do. -/
theorem Turns.complete_iff
    (h : Turns (ε := ε) session (l.count - u.committed.length) u events (.ok (), w))
    (hs : u.Sound l k) (hsize : l.partSize = session.partSize.toNat) :
    (w.committed.length = l.count ∧ w.digestedThrough = l.size) ↔
      u.InStep l.partSize ∨ (u.committed.length = l.count ∧ u.digestedThrough = l.size) := by
  obtain ⟨hlength, j, hs', hiff, hsame⟩ := h.inStep_iff hs hsize (Nat.le_refl _)
  have hle := hs.count_le
  have hle' := hs'.count_le
  constructor
  · rintro ⟨hall, hend⟩
    refine or_iff_not_imp_left.2 fun hout => ?_
    obtain rfl := hsame hout
    have hthrough : u.digestedThrough = l.size := by rw [hs.through_eq, ← hs'.through_eq, hend]
    refine ⟨?_, hthrough⟩
    -- Everything is hashed, so to be out of step no record can be missing.
    have hj : l.count ≤ j := by
      refine Decidable.byContradiction fun hlt => ?_
      have hj : j < l.count := Nat.lt_of_not_le hlt
      have hreach := l.reach_of_lt hj
      have hinside := l.lt_count_iff.1 hj
      rw [hs.through_eq] at hthrough
      omega
    rw [InStep, hs.hashedParts_eq] at hout
    have hmany : ¬u.committed.length < j := fun hlt => hout ⟨Nat.le_of_lt hlt, fun _ => hlt⟩
    omega
  · rintro (hin | ⟨hall, hend⟩)
    · have hin' := hiff.2 hin
      rw [InStep, hs'.hashedParts_eq] at hin'
      rw [InStep, hs.hashedParts_eq] at hin
      have hj : j = l.count := by omega
      exact ⟨by omega, by rw [hs'.through_eq, hj, l.reach_count]⟩
    · rw [hall, Nat.sub_self] at h
      cases h
      exact ⟨hall, hend⟩

/-! ## The commit -/

/-- The state in which the loop of an attempt begins. -/
def entering (u : Uploader) : Attempt → List (Transfer.Event ε) → Uploader
  | .resume, ⟨.listParts, .ok listing⟩ :: _ => u.adopt listing
  | _, _ => u

/-- An attempt that gets to the commit has gone through the loop. -/
theorem Attempted.finish_of_committed {kind : Attempt}
    {out : Except (TransferError ε) RemoteFile × Uploader} (h : Attempted session u kind events out)
    {digest : Sha1.Digest} {parts : List Part} {answer : Except (TransferError ε) RemoteFile}
    (hmem : .committed digest parts answer ∈ events) :
    ∃ rest, Finish session (u.entering kind events) rest out ∧
      .committed digest parts answer ∈ rest := by
  cases h with
  | aborted => cases hmem
  | start _ hfinish => exact ⟨events, hfinish, hmem⟩
  | unlisted => cases List.mem_singleton.1 hmem
  | resume _ hfinish =>
    rcases List.mem_cons.1 hmem with hmem | hmem
    · cases hmem
    · exact ⟨_, hfinish, hmem⟩

theorem Sound.entering (h : u.Sound l k) (kind : Attempt) : (u.entering kind events).Sound l k := by
  rw [Uploader.entering.eq_def]
  split
  · exact h.adopt _
  · exact h

/-- After any sequence of attempts and aborts, over a session that fits and may list, answer and
refuse what it likes, a commit passes the digest of what has been hashed. The list of records and
the digest are those of the whole file exactly if the loop began in step, or with nothing left to
do. -/
theorem commit_is_complete_iff_in_step {fileSize : UInt64} (hfits : session.Fits fileSize)
    {reader : Reader} {moves : List Move} {before : List (Transfer.Event ε)}
    (hbefore : Program.History (play session moves (.ofReader reader fileSize)) before u)
    {kind : Attempt} {result : Except (TransferError ε) RemoteFile}
    (h : Program.History (u.attempt session kind) events (result, w))
    {digest : Sha1.Digest} {parts : List Part} {answer : Except (TransferError ε) RemoteFile}
    (hcommit : .committed digest parts answer ∈ events) :
    digest = Sha1.hash (reader.content.take w.digestedThrough) ∧
    w.digestedThrough ≤ reader.content.length ∧
    ((parts.length = session.totalParts.toNat ∧ w.digestedThrough = fileSize.toNat) ↔
      (u.entering kind events).InStep session.partSize.toNat ∨
      ((u.entering kind events).committed.length = session.totalParts.toNat ∧
        (u.entering kind events).digestedThrough = fileSize.toNat)) := by
  obtain ⟨⟨k, hs⟩, -⟩ := (kept_sound (l := hfits.layout reader) rfl hfits.2.symm).of_played
    (history_play_iff.1 hbefore) ⟨0, sound_ofReader (hfits.layout reader)⟩ fun _ _ => trivial
  obtain ⟨rest, hfinish, hmem⟩ := (history_attempt_iff.1 h).finish_of_committed hcommit
  obtain ⟨rfl, rfl, _, hturns⟩ := hfinish.of_committed hmem
  rw [hfits.2] at hturns ⊢
  have hbegin : (u.entering kind events).Sound _ k := hs.entering kind
  obtain ⟨-, j, hend, -⟩ := hturns.inStep_iff hbegin rfl (Nat.le_refl _)
  refine ⟨?_, ?_, hturns.complete_iff hbegin rfl⟩
  · rw [hend.digest_eq, Sha1.Rolling.finish_feed, hend.through_eq]
    rfl
  · rw [hend.through_eq]
    exact hend.length_le

/-- A file of seven bytes in three parts, the second of which fails. The listing then has four
records of one byte each, up to the part in flight, and the upload commits these, with the digest
of six bytes. -/
theorem commits_four_records_for_three_parts :
    let session : Session := ⟨"seven", 3, 3⟩
    let reader : Reader := .ofBytes [1, 2, 3, 4, 5, 6, 7]
    session.Fits 7 ∧ ∃ (before events : List (Transfer.Event String)) (u w : Uploader)
        (digest : Sha1.Digest) (parts : List Part),
      Program.History (play session [.attempt .start] (.ofReader reader 7)) before u ∧
      Program.History (u.attempt session .resume) events (.error (.session "reset"), w) ∧
      .committed digest parts (.error (.session "reset")) ∈ events ∧
      digest = Sha1.hash (reader.content.take 6) ∧ parts.length = 4 ∧
      ¬(u.entering .resume events).InStep 3 := by
  intro session reader
  let listing : List Part := [⟨"a", 0, 1, ""⟩, ⟨"b", 1, 1, ""⟩, ⟨"c", 2, 1, ""⟩, ⟨"d", 3, 1, ""⟩]
  have hfits : session.Fits 7 := by decide
  have hcheck := Geometry.check_eq_ok_iff.2 hfits
  obtain ⟨u, hstart, hu⟩ := exists_interrupted hfits [1, 2, 3] [4, 5, 6] [7] ⟨"0", 0, 3, ""⟩
    (.session "reset") rfl (List.cons_ne_nil _ _) rfl (by decide)
  have hcommitted : (u.adopt listing).committed = listing := by
    simp [listing, adopt, hu.slot_eq, session, Slot.offset?, Slot.part?, reconcile, Reconciliation.byOffset,
      List.mergeSort, Reconciliation.firstOfEach, Reconciliation.run, Part.stop]
  have hbefore : Program.History (play session [.attempt .start] (.ofReader reader 7)) _ u :=
    history_play_iff.2 (.cons (.attempt hstart) (.nil u))
  have hall : session.totalParts.toNat ≤ (u.adopt listing).committed.length := by
    rw [hcommitted]
    decide
  have hresume := history_attempt_iff.2 (.resume hu.active
    (.refused (e := .session "reset") (hu.fileSize_eq.symm ▸ hcheck) (.of_complete hall)))
  have hin := List.mem_cons_of_mem (Transfer.Event.listed (.ok listing)) (List.mem_cons_of_mem
    (Transfer.Event.reported ((u.adopt listing).progress session .committing))
    (List.mem_singleton_self (Transfer.Event.committed (u.adopt listing).digest.finish
      (u.adopt listing).committed (.error (.session "reset")))))
  obtain ⟨hdigest, -, hiff⟩ := commit_is_complete_iff_in_step hfits hbefore hresume hin
  rw [hcommitted] at hiff
  have hthrough : u.digestedThrough = 6 := hu.through_eq
  refine ⟨hfits, _, _, u, _, _, _, hbefore, hresume, hin, hthrough ▸ hdigest, ?_, fun hstep => ?_⟩
  · rw [hcommitted]
    rfl
  · cases (hiff.2 (.inl hstep)).1

end Uploader

end ResumableUpload
