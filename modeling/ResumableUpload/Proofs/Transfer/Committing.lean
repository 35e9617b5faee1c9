import ResumableUpload.Proofs.Transfer.InStep
import ResumableUpload.Proofs.Transfer.Listing

/-!
# What is committed

Over a session whose records are those of the file's parts, a commit passes the digest of the whole
file and one record for each part, in order (`commits_whole_file`). What the session loses, what it
refuses, what order it lists its records in and how the stream delivers its bytes makes no
difference, and neither does it how many attempts have failed before.

The invariant joins what is true of every upload (`Sound`) with what such records bring about: those
that count cover the first parts, and keep step with the digest (`Tidy`).
-/

namespace ResumableUpload

/-- If this is a listing, its records are on the grid; if it is the record of a part that has been
sent, it names the part's offset and length. -/
def Transfer.Event.WellFormed {ε : Type} (fileSize partSize : Nat) : Transfer.Event ε → Prop
  | ⟨.listParts, .ok listing⟩ => ∀ p ∈ listing, p.OnGrid fileSize partSize
  | ⟨.sendPart bytes offset _, .ok p⟩ => p.Echoes bytes offset
  | _ => True

/-- If this is a commit, it is one of the whole file. -/
def Transfer.Event.CommitsFile {ε : Type} (l : Layout) : Transfer.Event ε → Prop
  | ⟨.commit digest parts, _⟩ =>
    l.size ≤ l.content.length ∧ digest = Sha1.hash (l.content.take l.size) ∧
      l.Covers 0 parts ∧ parts.length = l.count
  | _ => True

/-- A question of the loop is no commit. -/
theorem Transfer.Event.commitsFile_of_isOfLoop {ε : Type} {l : Layout} {event : Transfer.Event ε}
    (h : event.question.IsOfLoop) : event.CommitsFile l := by
  obtain ⟨question, answer⟩ := event
  cases question with
  | commit digest parts => exact h.elim
  | _ => trivial

namespace Layout

variable {l : Layout} {parts : List Part}

/-- The offsets of records that cover every part are the grid. -/
theorem Covers.map_offset_eq_grid (h : l.Covers 0 parts) (hall : parts.length = l.count) :
    parts.map (·.offset.toNat) = Geometry.grid l.size l.partSize := by
  rw [h.map_offset, hall, ← List.range_eq_range']
  rfl

/-- Records that cover every part follow on from each other, from the first byte to the last. -/
theorem Covers.tile_file (h : l.Covers 0 parts) (hall : parts.length = l.count) :
    Part.Tile 0 l.size parts := by
  have htiles := h.tiles (by omega)
  rwa [l.reach_zero, Nat.zero_add, hall, l.reach_count] at htiles

end Layout

namespace PartIndex

/-- Every record of an index is on the grid, and in its place. -/
def OnGrid (index : PartIndex) (l : Layout) : Prop :=
  ∀ (offset : Nat) (p : Part), index[offset]? = some p →
    p.offset.toNat = offset ∧ p.OnGrid l.size l.partSize

variable {index : PartIndex} {l : Layout}

theorem OnGrid.note (h : index.OnGrid l) {p : Part} (hp : p.OnGrid l.size l.partSize) :
    (index.note p).OnGrid l := by
  intro offset q hq
  rw [getElem?_note] at hq
  split at hq
  · cases hq
    exact ⟨‹_›, hp⟩
  · exact h offset q hq

theorem onGrid_ofListing {listing : List Part} (h : ∀ p ∈ listing, p.OnGrid l.size l.partSize) :
    (ofListing listing).OnGrid l := by
  intro offset p hp
  obtain ⟨hmem, hoffset⟩ := mem_of_getElem?_ofListing hp
  exact ⟨hoffset, h p hmem⟩

end PartIndex

namespace Uploader

variable {ε : Type} {session : Session} {l : Layout} {k : Nat} {u v w : Uploader}
  {events : List (Transfer.Event ε)}

/-- The records that count cover the first parts and keep step with the digest. -/
structure Tidy (l : Layout) (u : Uploader) : Prop where
  inStep : u.InStep l.partSize
  covers : l.Covers 0 u.committed
  known : u.known.OnGrid l

/-- An upload that has not begun is tidy. -/
theorem tidy_ofReader (l : Layout) : (ofReader l.stream l.fileSize).Tidy l where
  inStep := ⟨Nat.zero_le _, absurd rfl⟩
  covers := trivial
  known := by
    intro offset p hp
    simp only [ofReader, Std.ExtTreeMap.getElem?_empty, reduceCtorEq] at hp

theorem Tidy.giveUp (h : u.Tidy l) : u.giveUp.Tidy l where
  inStep := ⟨Nat.zero_le _, absurd rfl⟩
  covers := trivial
  known := h.known

/-- A listing on the grid makes an upload tidy, whatever counted before. -/
theorem Sound.tidy_adopt (hs : u.Sound l k) {listing : List Part}
    (hgrid : ∀ p ∈ listing, p.OnGrid l.size l.partSize) : (u.adopt listing).Tidy l where
  covers := covers_reconcile hgrid
  known := PartIndex.onGrid_ofListing hgrid
  inStep := by
    rw [InStep, (hs.adopt listing).hashedParts_eq]
    cases hslot : u.slot with
    | idle =>
      simp only [Uploader.adopt, hslot, Slot.offset?, Slot.part?, Option.map_none, reconcile]
      exact ⟨Nat.zero_le k, absurd rfl⟩
    | holding part =>
      obtain ⟨i, rfl, rfl⟩ := hs.slot_eq part hslot
      have hle := reconcile_length_le (j := i) hgrid
      simp only [Uploader.adopt, hslot, Slot.offset?, Slot.part?, Option.map_some, Layout.piece]
      split at hle
      next hlanded => exact ⟨hle, fun hheld => absurd (if_pos hlanded) hheld⟩
      next => exact ⟨Nat.le_succ_of_le hle, fun _ => Nat.lt_succ_of_le hle⟩

/-- Counting a record of the next part keeps the records tidy. -/
theorem Tidy.account (h : u.Tidy l) {record : Part}
    (hoffset : record.offset.toNat = u.committed.length * l.partSize)
    (hgrid : record.OnGrid l.size l.partSize) :
    l.Covers 0 (u.account record).committed ∧ (u.account record).known.OnGrid l := by
  refine ⟨h.covers.concat ?_ ?_, h.known.note hgrid⟩
  · rw [Nat.zero_add, hoffset]
  · rw [Nat.zero_add]
    exact (Layout.size_of_onGrid hgrid hoffset).2

/-- Getting a part ready leaves the records tidy. -/
theorem Ready.tidy (h : Ready l k u v) (htidy : u.Tidy l) : v.Tidy l where
  inStep := by
    rw [InStep, h.sound.hashedParts_eq, h.committed_eq]
    exact ⟨Nat.le_succ _, absurd h.slot_eq⟩
  covers := h.committed_eq ▸ htidy.covers
  known := h.known_eq ▸ htidy.known

/-- A step keeps the records tidy, if the session's answer does. -/
theorem Step.tidy {out : Except (TransferError ε) Unit × Uploader}
    (h : Step session l k u events out) (hs : u.Sound l k) (htidy : u.Tidy l)
    (htold : ∀ event ∈ events, event.WellFormed l.size l.partSize) : out.2.Tidy l := by
  have hstep := h.inStep hs htidy.inStep
  cases h with
  | recalled _ hknown =>
    obtain ⟨hoffset, hgrid⟩ := htidy.known _ _ hknown
    obtain ⟨hcovers, hknown'⟩ := htidy.account hoffset hgrid
    exact ⟨hstep, hcovers, hknown'⟩
  | reused hready hknown =>
    obtain ⟨hoffset, hgrid⟩ := htidy.known _ _ hknown
    obtain ⟨hcovers, hknown'⟩ := (hready.tidy htidy).account (hready.committed_eq ▸ hoffset) hgrid
    exact ⟨hstep, hcovers, hknown'⟩
  | stored hready =>
    have hechoes := htold _ List.mem_cons_self
    obtain ⟨hoffset, hgrid⟩ :=
      Layout.onGrid_of_echoes hready.sound.count_le hready.sound.length_le hechoes
    obtain ⟨hcovers, hknown'⟩ := (hready.tidy htidy).account (hready.committed_eq ▸ hoffset) hgrid
    exact ⟨hstep, hcovers, hknown'⟩
  | held hready => exact ⟨hstep, (hready.tidy htidy).covers, (hready.tidy htidy).known⟩
  | failed hdrawn =>
    have hsame := (hdrawn.sound_of_error hs).2
    refine ⟨hstep, ?_, ?_⟩
    · rw [hsame]
      exact htidy.covers
    · rw [hsame]
      exact htidy.known

/-- An upload in a sound and tidy state commits nothing but the whole file. -/
theorem Tidy.commitsFile (h : u.Tidy l) (hs : u.Sound l k) (hall : l.count ≤ u.committed.length)
    (answer : Except (TransferError ε) RemoteFile) :
    (Transfer.Event.committed u.digest.finish u.committed answer).CommitsFile l := by
  have hle := hs.hashedParts_eq ▸ h.inStep.1
  have hcount := hs.count_le
  obtain rfl : k = l.count := by omega
  have hlength := hs.length_le
  rw [l.reach_count] at hlength
  refine ⟨hlength, ?_, h.covers, by omega⟩
  rw [hs.digest_eq, Sha1.Rolling.finish_feed, l.reach_count]

/-- Over records of the file's parts, an upload stays sound and tidy, and commits nothing but the
whole file. -/
theorem kept_tidy (hsize : l.partSize = session.partSize.toNat)
    (hcount : l.count = session.totalParts.toNat) :
    Kept (ε := ε) session (·.WellFormed l.size l.partSize) (·.CommitsFile l) fun u =>
      (∃ k, u.Sound l k) ∧ u.Tidy l where
  turn := by
    rintro u events out ⟨⟨k, hs⟩, htidy⟩ hnext hturn htold
    have hstep := hturn.step hs hsize (hcount ▸ hnext)
    obtain ⟨j, _, hs'⟩ := hstep.sound hs
    refine ⟨⟨⟨j, hs'⟩, hstep.tidy hs htidy htold⟩, fun event hmem => ?_⟩
    exact Transfer.Event.commitsFile_of_isOfLoop (hturn.question_isOfLoop event hmem)
  commit := fun answer ⟨⟨_, hs⟩, htidy⟩ hall => htidy.commitsFile hs (hcount ▸ hall) answer
  adopt := fun ⟨⟨k, hs⟩, _⟩ hgrid => ⟨⟨k, hs.adopt _⟩, hs.tidy_adopt hgrid⟩
  giveUp := fun ⟨⟨k, hs⟩, htidy⟩ => ⟨⟨k, hs.giveUp⟩, htidy.giveUp⟩
  listed _ := trivial
  discarded _ := trivial
  reported _ := trivial

/-- In any sequence of attempts and aborts, over a session that fits, whose listings name nothing
but parts of the file, and whose records of parts that it has taken name what it was sent: every
commit passes the digest of the file and one record for each part, in order and without gap or
overlap. In particular there is no commit if the stream is shorter than the file. -/
theorem commits_whole_file {fileSize : UInt64} (hfits : session.Fits fileSize) {reader : Reader}
    {moves : List Move}
    (h : Program.History (play session moves (.ofReader reader fileSize)) events u)
    (htold : ∀ event ∈ events, event.WellFormed fileSize.toNat session.partSize.toNat)
    {digest : Sha1.Digest} {parts : List Part} {answer : Except (TransferError ε) RemoteFile}
    (hcommit : .committed digest parts answer ∈ events) :
    fileSize.toNat ≤ reader.content.length ∧
      digest = Sha1.hash (reader.content.take fileSize.toNat) ∧
      parts.length = session.totalParts.toNat ∧
      parts.map (·.offset.toNat) = Geometry.grid fileSize.toNat session.partSize.toNat ∧
      Part.Tile 0 fileSize.toNat parts := by
  obtain ⟨-, hasked⟩ := (kept_tidy (l := hfits.layout reader) rfl hfits.2.symm).of_played
    (history_play_iff.1 h) ⟨⟨0, sound_ofReader _⟩, tidy_ofReader _⟩ htold
  obtain ⟨hlength, hdigest, hcovers, hall⟩ := hasked _ hcommit
  exact ⟨hlength, hdigest, hall.trans hfits.2.symm, hcovers.map_offset_eq_grid hall,
    hcovers.tile_file hall⟩

/-- The second of two parts is stored, and the answer is lost. The next attempt finds both listed,
in any order, and commits them. -/
theorem commits_three_bytes :
    let session : Session := ⟨"three", 2, 2⟩
    let reader : Reader := .ofBytes [1, 2, 3]
    session.Fits 3 ∧ ∃ (events : List (Transfer.Event String)) (u : Uploader)
        (digest : Sha1.Digest) (parts : List Part),
      Program.History (play session [.attempt .start, .attempt .resume] (.ofReader reader 3))
        events u ∧
      (∀ event ∈ events, event.WellFormed 3 2) ∧
      .committed digest parts (.error (.session "reset")) ∈ events ∧
      digest = Sha1.hash (reader.content.take 3) ∧ Part.Tile 0 3 parts := by
  intro session reader
  let first : Part := ⟨"a", 0, 2, ""⟩
  let second : Part := ⟨"b", 2, 1, ""⟩
  have hfits : session.Fits 3 := by decide
  have hcheck := Geometry.check_eq_ok_iff.2 hfits
  obtain ⟨u, hstart, hu⟩ := exists_interrupted hfits [1, 2] [3] [] first (.session "reset") rfl
    (List.cons_ne_nil _ _) rfl (by decide)
  have hcommitted : (u.adopt [second, first]).committed = [first, second] := by
    simp [first, second, adopt, hu.slot_eq, session, Slot.offset?, Slot.part?, reconcile, Reconciliation.byOffset,
      List.mergeSort, Reconciliation.firstOfEach, Reconciliation.run, Part.stop]
  have hall : session.totalParts.toNat ≤ (u.adopt [second, first]).committed.length := by
    rw [hcommitted]
    decide
  have hplayed : Played session [.attempt .start, .attempt .resume] (ofReader reader 3) _ _ :=
    .cons (.attempt hstart) (.cons (.attempt (.resume hu.active
      (.refused (e := .session "reset") (hu.fileSize_eq.symm ▸ hcheck) (.of_complete hall))))
        (.nil _))
  have hlisting : ∀ p ∈ [second, first], p.OnGrid 3 2 := by decide
  have hechoes : first.Echoes [1, 2] 0 := by decide
  obtain ⟨events, digest, hhistory, htold, hmem⟩ :
      ∃ (events : List (Transfer.Event String)) (digest : Sha1.Digest),
      Program.History (play session [.attempt .start, .attempt .resume] (.ofReader reader 3)) events
        (u.adopt [second, first]) ∧ (∀ event ∈ events, event.WellFormed 3 2) ∧
      .committed digest [first, second] (.error (.session "reset")) ∈ events := by
    refine ⟨_, (u.adopt [second, first]).digest.finish, history_play_iff.2 hplayed, ?_, ?_⟩
    · simp only [List.forall_mem_append, List.forall_mem_cons, List.nil_append, List.append_nil]
      exact ⟨⟨hechoes, trivial, trivial, List.forall_mem_nil _⟩, hlisting, trivial, trivial,
        List.forall_mem_nil _⟩
    · rw [hcommitted]
      refine List.mem_append_right _ (List.mem_append_left _ ?_)
      exact List.mem_cons_of_mem _ (List.mem_cons_of_mem _ (List.mem_singleton_self _))
  obtain ⟨-, hdigest, -, -, htile⟩ := commits_whole_file hfits hhistory htold hmem
  exact ⟨hfits, events, _, digest, _, hhistory, htold, hmem, hdigest, htile⟩

end Uploader

end ResumableUpload
