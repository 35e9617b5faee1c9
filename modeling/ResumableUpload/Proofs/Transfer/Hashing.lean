import ResumableUpload.Proofs.Transfer.InStep

/-!
# Every byte is hashed once

The digest of an upload is of a prefix of its content, and this prefix only grows
(`hashes_each_byte_once`). That does not rest on the session's geometry: the size and the number of
the parts may change from attempt to attempt, so that parts overlap, bytes are read and thrown away,
and parts are sent that are never hashed. It rests on two guards. A part is hashed only if it begins
where the hashed prefix ends, and its bytes are a slice of the content.

The invariant (`Faithful`) therefore speaks of offsets and not of parts. What the geometry adds when
it does not change is that the part in the slot ends the hashed prefix.
-/

namespace ResumableUpload

/-- The bytes of the part are those of the content at its offset. -/
def InFlight.SliceOf (content : Bytes) (part : InFlight) : Prop :=
  part.chunk = content.slice part.offset part.size

/-- The content up to the end of a slice. -/
theorem InFlight.SliceOf.take_stop {content : Bytes} {part : InFlight} (h : part.SliceOf content) :
    content.take part.stop = content.take part.offset ++ part.chunk := by
  rw [InFlight.stop, List.take_add, h]
  rfl

namespace Uploader

open Program (History history_pure_iff history_do_iff)

variable {ε : Type} {session : Session} {stream : Reader} {fileSize : UInt64} {partSize : Nat}
  {u w : Uploader} {events : List (Transfer.Event ε)}

/-- How many bytes of the content the stream has handed out. An upload that has let go of its stream
may have seen all of them. -/
def handedOut (u : Uploader) (stream : Reader) : Nat :=
  (u.content.map Source.position).getD stream.content.length

/-- What is true of an upload over any sessions. -/
structure Faithful (stream : Reader) (fileSize : UInt64) (u : Uploader) : Prop where
  fileSize_eq : u.fileSize = fileSize
  digest_eq : u.digest = Sha1.Rolling.empty.feed (stream.content.take u.digestedThrough)
  through_le : u.digestedThrough ≤ u.handedOut stream
  slot_slice : ∀ part, u.slot = .holding part →
    part.SliceOf stream.content ∧ part.stop ≤ u.handedOut stream
  /-- Neither what is handed out nor what waits is beyond the file. -/
  source : ∀ s, u.content = some s →
    s.CutFrom stream ∧ s.position + s.pending.length ≤ fileSize.toNat

/-- An upload that has not begun is faithful. -/
theorem faithful_ofReader (stream : Reader) (fileSize : UInt64) :
    (ofReader stream fileSize).Faithful stream fileSize where
  fileSize_eq := rfl
  digest_eq := rfl
  through_le := Nat.zero_le _
  slot_slice := nofun
  source := by
    rintro _ ⟨⟩
    exact ⟨Source.cutFrom_ofReader stream, Nat.zero_le _⟩

namespace Faithful

/-- A stream hands out its content only. -/
theorem handedOut_le (h : u.Faithful stream fileSize) :
    u.handedOut stream ≤ stream.content.length := by
  rw [handedOut]
  cases hcontent : u.content with
  | none => exact Nat.le_refl _
  | some s => exact (h.source s hcontent).1.position_le

/-- What is hashed finishes as the digest of the prefix. -/
theorem finish_eq (h : u.Faithful stream fileSize) :
    u.digest.finish = Sha1.hash (stream.content.take u.digestedThrough) := by
  rw [h.digest_eq, Sha1.Rolling.finish_feed]

/-- What counts as committed and what is known makes no difference. -/
theorem account (h : u.Faithful stream fileSize) (part : Part) :
    (u.account part).Faithful stream fileSize := { h with }

/-- Taking over a listing can only empty the slot. -/
theorem adopt (h : u.Faithful stream fileSize) (listing : List Part) :
    (u.adopt listing).Faithful stream fileSize :=
  { h with
    slot_slice := by
      intro part hslot
      simp only [Uploader.adopt] at hslot
      split at hslot
      · cases hslot
      · exact h.slot_slice part hslot }

/-- Letting go of the stream keeps what has been hashed. -/
theorem giveUp (h : u.Faithful stream fileSize) : u.giveUp.Faithful stream fileSize :=
  { h with
    through_le := Nat.le_trans h.through_le h.handedOut_le
    slot_slice := nofun
    source := nofun }

/-- A stream that has handed out more can take the place of the content. -/
theorem withSource (h : u.Faithful stream fileSize) {s t : Source} (hcontent : u.content = some s)
    (hcut : t.CutFrom stream) (hle : s.position ≤ t.position)
    (hroom : t.position + t.pending.length ≤ fileSize.toNat) :
    { u with content := some t }.Faithful stream fileSize := by
  have hmore : u.handedOut stream ≤ { u with content := some t }.handedOut stream := by
    simp only [handedOut, hcontent, Option.map_some, Option.getD_some]
    exact hle
  refine ⟨h.fileSize_eq, h.digest_eq, Nat.le_trans h.through_le hmore, fun part hslot => ?_, ?_⟩
  · obtain ⟨hslice, hstop⟩ := h.slot_slice part hslot
    exact ⟨hslice, Nat.le_trans hstop hmore⟩
  · rintro _ ⟨⟩
    exact ⟨hcut, hroom⟩

/-- Hashing a slice that has been handed out goes on with the prefix, or does nothing. -/
theorem hash (h : u.Faithful stream fileSize) {part : InFlight}
    (hslice : part.SliceOf stream.content) (hstop : part.stop ≤ u.handedOut stream) :
    (u.hash part).Faithful stream fileSize ∧ u.digestedThrough ≤ (u.hash part).digestedThrough := by
  rw [Uploader.hash]
  split
  next hbegin =>
    refine ⟨{ h with digest_eq := ?_, through_le := hstop }, hbegin ▸ Nat.le_add_right _ _⟩
    simp only [h.digest_eq, hslice.take_stop, Sha1.Rolling.feed_append, hbegin]
  next => exact ⟨h, Nat.le_refl _⟩

end Faithful

/-- Over a session that fits there is more to say. -/
theorem Sound.faithful {l : Layout} {k : Nat} (h : u.Sound l k) :
    u.Faithful l.stream l.fileSize := by
  have hhanded : l.reach k ≤ u.handedOut l.stream := by
    rw [handedOut]
    cases hcontent : u.content with
    | none => exact h.length_le
    | some s =>
      show l.reach k ≤ s.position
      cases (h.source s hcontent).2 with
      | before hposition => exact Nat.le_of_eq hposition.symm
      | inside hlow => exact Nat.le_of_lt hlow
  refine ⟨h.fileSize_eq, ?_, ?_, fun part hslot => ?_, fun s hcontent => ?_⟩
  · rw [h.through_eq]
    exact h.digest_eq
  · rw [h.through_eq]
    exact hhanded
  · obtain ⟨i, rfl, rfl⟩ := h.slot_eq part hslot
    constructor
    · rw [InFlight.SliceOf, InFlight.size, l.length_piece h.count_le h.length_le]
      rfl
    · rw [l.stop_piece h.count_le h.length_le]
      exact hhanded
  · obtain ⟨hcut, hpoised⟩ := h.source s hcontent
    exact ⟨hcut, Nat.le_trans hpoised.position_add_pending_le l.reach_le_size⟩

/-! ## One turn -/

/-- Looking for the next part keeps an upload faithful, and a part that is found is a slice of what
has been handed out. -/
theorem Sought.faithful {result : Except (TransferError ε) Next}
    (h : Sought partSize u (result, w)) (hf : u.Faithful stream fileSize) :
    w.Faithful stream fileSize ∧ ∀ part, result = .ok (.atHand part) →
      part.SliceOf stream.content ∧ part.stop ≤ w.handedOut stream := by
  -- What a call for the next chunk leaves, whatever it comes to.
  have hread : ∀ {s t : Source} {result : Except String Bytes}, u.content = some s →
      s.position = u.committed.length * partSize →
      s.nextChunk (Geometry.partLength u.fileSize.toNat partSize
        (u.committed.length * partSize)) = (result, t) →
      { u with content := some t }.Faithful stream fileSize := by
    intro s t result hcontent hposition hchunk
    obtain ⟨hcut, hpending⟩ := hf.source s hcontent
    obtain ⟨hcut', hroom, herror, hok⟩ := hcut.of_nextChunk hchunk
    refine hf.withSource hcontent hcut' ?_ ?_
    · cases result with
      | error cause => exact Nat.le_of_eq (herror cause rfl).symm
      | ok chunk =>
        rw [(hok chunk rfl).2]
        exact Nat.le_add_right _ _
    · rw [← hposition, hf.fileSize_eq, Geometry.partLength] at hroom
      omega
  cases h with
  | waiting hslot =>
    refine ⟨{ hf with slot_slice := by rintro _ ⟨⟩ }, ?_⟩
    rintro _ ⟨⟩
    exact hf.slot_slice _ hslot
  | recorded => exact ⟨hf, by rintro _ ⟨⟩⟩
  | missing => exact ⟨hf, by rintro _ ⟨⟩⟩
  | @read s t chunk _ _ hcontent hposition hchunk hfull =>
    refine ⟨hread hcontent hposition hchunk, ?_⟩
    rintro _ ⟨⟩
    obtain ⟨-, -, -, hok⟩ := (hf.source s hcontent).1.of_nextChunk hchunk
    obtain ⟨hslice, hmoved⟩ := hok chunk rfl
    rw [hposition] at hslice hmoved
    exact ⟨hslice, Nat.le_of_eq hmoved.symm⟩
  | interrupted _ _ hcontent hposition hchunk =>
    exact ⟨hread hcontent hposition hchunk, by rintro _ ⟨⟩⟩
  | torn _ _ hcontent hposition hchunk =>
    exact ⟨hread hcontent hposition hchunk, by rintro _ ⟨⟩⟩
  | stranded => exact ⟨hf, by rintro _ ⟨⟩⟩
  | released => exact ⟨hf, by rintro _ ⟨⟩⟩

/-- A turn of the loop keeps an upload faithful, and unhashes nothing. -/
theorem Turn.faithful {out : Except (TransferError ε) Unit × Uploader}
    (h : Turn session u events out) (hf : u.Faithful stream fileSize) :
    out.2.Faithful stream fileSize ∧ u.digestedThrough ≤ out.2.digestedThrough := by
  have hsought := next_sought (ε := ε) u session.partSize.toNat
  -- A part at hand is hashed, whatever becomes of it.
  have hhash : ∀ {part : InFlight} {w : Uploader},
      Sought (ε := ε) session.partSize.toNat u (.ok (.atHand part), w) →
      (w.hash part).Faithful stream fileSize ∧
        u.digestedThrough ≤ (w.hash part).digestedThrough ∧
        part.SliceOf stream.content ∧ part.stop ≤ (w.hash part).handedOut stream := by
    intro part w hsought
    obtain ⟨hf', hpart⟩ := hsought.faithful hf
    obtain ⟨hslice, hstop⟩ := hpart part rfl
    obtain ⟨hhashed, hle⟩ := hf'.hash hslice hstop
    have hthrough : w.digestedThrough = u.digestedThrough := by rw [hsought.frame]
    have hhanded : (w.hash part).handedOut stream = w.handedOut stream := by
      rw [Uploader.hash]
      split <;> rfl
    exact ⟨hhashed, hthrough ▸ hle, hslice, hhanded ▸ hstop⟩
  cases h with
  | failed hnext =>
    rw [hnext] at hsought
    refine ⟨(hsought.faithful hf).1, ?_⟩
    exact Nat.le_of_eq (congrArg digestedThrough hsought.frame).symm
  | recalled hnext =>
    rw [hnext] at hsought
    refine ⟨(hsought.faithful hf).1.account _, ?_⟩
    exact Nat.le_of_eq (congrArg digestedThrough hsought.frame).symm
  | reused hnext =>
    obtain ⟨hf', hle, -, -⟩ := hhash (hnext ▸ hsought)
    exact ⟨hf'.account _, hle⟩
  | stored hnext =>
    obtain ⟨hf', hle, -, -⟩ := hhash (hnext ▸ hsought)
    exact ⟨hf'.account _, hle⟩
  | held hnext =>
    obtain ⟨hf', hle, hslice, hstop⟩ := hhash (hnext ▸ hsought)
    refine ⟨{ hf' with slot_slice := ?_ }, hle⟩
    rintro _ ⟨⟩
    exact ⟨hslice, hstop⟩

/-- An upload stays faithful, whatever it is told, and what has been hashed stays hashed. -/
theorem kept_faithful (session : Session) (through : Nat) :
    Kept (ε := ε) session (fun _ => True) (fun _ => True) fun u =>
      u.Faithful stream fileSize ∧ through ≤ u.digestedThrough where
  turn := by
    rintro u events out ⟨hf, hle⟩ - hturn -
    obtain ⟨hf', hle'⟩ := hturn.faithful hf
    exact ⟨⟨hf', Nat.le_trans hle hle'⟩, fun _ _ => trivial⟩
  commit _ _ _ := trivial
  adopt := fun ⟨hf, hle⟩ _ => ⟨hf.adopt _, hle⟩
  giveUp := fun ⟨hf, hle⟩ => ⟨hf.giveUp, hle⟩
  listed _ := trivial
  discarded _ := trivial
  reported _ := trivial

/-! ## Sessions that change -/

/-- One move after the other, each over a session of its own. -/
def playOver : List (Session × Move) → Uploader → Program (Transfer ε) Uploader
  | [], u => pure u
  | (session, m) :: moves, u => do playOver moves (← u.move session m)

/-- What each of the moves keeps that is told only such answers, all of them keep. -/
theorem keeps_playOver_of_told (told : Transfer.Event ε → Prop) (inv : Uploader → Prop)
    {moves : List (Session × Move)}
    (hmove : ∀ m ∈ moves, ∀ {u w : Uploader} {events : List (Transfer.Event ε)},
      Moved m.1 u m.2 events w → (∀ event ∈ events, told event) → inv u → inv w)
    (h : History (playOver moves u) events w) (htold : ∀ event ∈ events, told event)
    (hinv : inv u) : inv w := by
  induction moves generalizing u events with
  | nil =>
    obtain ⟨-, rfl⟩ := history_pure_iff.1 h
    exact hinv
  | cons m moves ih =>
    obtain ⟨hfirst, hrest⟩ := List.forall_mem_cons.1 hmove
    obtain ⟨_, v, _, rfl, hmoved, hplayed⟩ := history_do_iff.1 h
    obtain ⟨htold, htold'⟩ := List.forall_mem_append.1 htold
    exact ih hrest hplayed htold' (hfirst (history_move_iff.1 hmoved) htold hinv)

/-- What each of the moves keeps, all of them keep. -/
theorem keeps_playOver (inv : Uploader → Prop) {moves : List (Session × Move)}
    (hmove : ∀ m ∈ moves, ∀ {u w : Uploader} {events : List (Transfer.Event ε)},
      Moved m.1 u m.2 events w → inv u → inv w)
    (h : History (playOver moves u) events w) (hinv : inv u) : inv w :=
  keeps_playOver_of_told (fun _ => True) inv (fun m hm _ _ _ hmoved _ => hmove m hm hmoved) h
    (fun _ _ => trivial) hinv

/-- Over any sessions an upload stays faithful, and what has been hashed stays hashed. -/
theorem Faithful.playOver {moves : List (Session × Move)} (h : u.Faithful stream fileSize)
    (hplayed : History (playOver moves u) events w) :
    w.Faithful stream fileSize ∧ u.digestedThrough ≤ w.digestedThrough := by
  refine keeps_playOver (fun v => v.Faithful stream fileSize ∧
    u.digestedThrough ≤ v.digestedThrough) ?_ hplayed ⟨h, Nat.le_refl _⟩
  intro m _ v w events hmoved hinv
  exact ((kept_faithful m.1 u.digestedThrough).of_moved hmoved hinv fun _ _ => trivial).1

/-- Over a session that does not fit, nothing gets into the slot. -/
theorem Moved.slot_eq_idle {m : Move} (h : Moved session u m events w)
    (hmisfit : ¬session.Fits u.fileSize) (hidle : u.slot = .idle) : w.slot = .idle := by
  have hfinish : ∀ {v : Uploader} {events : List (Transfer.Event ε)}
      {result : Except (TransferError ε) RemoteFile}, v.fileSize = u.fileSize → v.slot = .idle →
      Finish session v events (result, w) → w.slot = .idle := by
    intro v events result hsize hslot hfinish
    have hcheck : Geometry.check v.fileSize session.partSize session.totalParts ≠ .ok () :=
      hsize ▸ mt Geometry.check_eq_ok_iff.1 hmisfit
    cases hfinish with
    | misfit => exact hslot
    | stopped hok => exact absurd hok hcheck
    | refused hok => exact absurd hok hcheck
    | committed hok => exact absurd hok hcheck
  cases h with
  | attempt h =>
    cases h with
    | aborted => exact hidle
    | start _ h => exact hfinish rfl hidle h
    | unlisted => exact hidle
    | resume _ h =>
      refine hfinish (v := u.adopt _) rfl ?_ h
      simp only [Uploader.adopt, hidle, ite_self]
  | abortFailed => rfl
  | aborted => rfl

/-- As long as the geometry does not change, the part in the slot is the last that has been
hashed. -/
theorem stop_eq_of_geometry {moves : List (Session × Move)}
    (hsame : ∀ m ∈ moves, m.1.partSize = session.partSize ∧ m.1.totalParts = session.totalParts)
    (h : History (playOver moves (.ofReader stream fileSize)) events u) {part : InFlight}
    (hslot : u.slot = .holding part) : part.stop = u.digestedThrough := by
  by_cases hfits : session.Fits fileSize
  · have hsound : ∃ k, u.Sound (hfits.layout stream) k := by
      refine keeps_playOver (fun u => ∃ k, u.Sound (hfits.layout stream) k) ?_ h
        ⟨0, sound_ofReader (hfits.layout stream)⟩
      intro m hm u w events hmoved hinv
      obtain ⟨hsize, hcount⟩ := hsame m hm
      refine ((kept_sound ?_ ?_).of_moved hmoved hinv fun _ _ => trivial).1
      · rw [hsize]
        rfl
      · rw [hcount]
        exact hfits.2.symm
    obtain ⟨k, hs⟩ := hsound
    obtain ⟨i, rfl, rfl⟩ := hs.slot_eq part hslot
    rw [hs.through_eq, Layout.stop_piece _ hs.count_le hs.length_le]
  · have hidle : u.Faithful stream fileSize ∧ u.slot = .idle := by
      refine keeps_playOver (fun u => u.Faithful stream fileSize ∧ u.slot = .idle) ?_ h
        ⟨faithful_ofReader stream fileSize, rfl⟩
      rintro m hm u w events hmoved ⟨hf, hidle⟩
      obtain ⟨⟨hf', -⟩, -⟩ :=
        (kept_faithful m.1 0).of_moved hmoved ⟨hf, Nat.zero_le _⟩ fun _ _ => trivial
      refine ⟨hf', hmoved.slot_eq_idle ?_ hidle⟩
      obtain ⟨hsize, hcount⟩ := hsame m hm
      rw [hf.fileSize_eq, Session.Fits, hsize, hcount]
      exact hfits
    rw [hidle.2] at hslot
    cases hslot

/-- After any sequence of attempts and aborts, over sessions that list, answer and refuse what they
like and whose geometry may change: the digest is of a prefix of the content, which ends nowhere
beyond what the stream has handed out, and that is no more than the file. The part in the slot is a
slice of the content; if the geometry has never changed, it ends the prefix. Whatever comes then,
the prefix does not get shorter, and a commit passes the digest of the prefix. -/
theorem hashes_each_byte_once {reader : Reader} {moves : List (Session × Move)}
    (h : History (playOver moves (.ofReader reader fileSize)) events u) :
    (u.digestedThrough ≤ reader.content.length ∧
      u.digest = Sha1.Rolling.empty.feed (reader.content.take u.digestedThrough)) ∧
    (∀ source, u.content = some source →
      u.digestedThrough ≤ source.position ∧ source.position ≤ fileSize.toNat) ∧
    (∀ part, u.slot = .holding part →
      part.chunk = reader.content.slice part.offset part.size ∧
      ∀ session : Session,
        (∀ m ∈ moves, m.1.partSize = session.partSize ∧ m.1.totalParts = session.totalParts) →
        part.stop = u.digestedThrough) ∧
    (∀ (later : List (Session × Move)) (after : List (Transfer.Event ε)) (w : Uploader),
      History (playOver later u) after w → u.digestedThrough ≤ w.digestedThrough) ∧
    ∀ (session : Session) (kind : Attempt) (after : List (Transfer.Event ε))
      (result : Except (TransferError ε) RemoteFile) (w : Uploader),
      History (u.attempt session kind) after (result, w) →
      ∀ digest parts answer, .committed digest parts answer ∈ after →
        digest = Sha1.hash (reader.content.take w.digestedThrough) ∧
        w.digestedThrough ≤ reader.content.length := by
  obtain ⟨hf, -⟩ := (faithful_ofReader reader fileSize).playOver h
  refine ⟨⟨Nat.le_trans hf.through_le hf.handedOut_le, hf.digest_eq⟩, fun source hcontent => ?_,
    fun part hslot => ⟨(hf.slot_slice part hslot).1, fun session hsame =>
      stop_eq_of_geometry hsame h hslot⟩,
    fun later after w hplayed => (hf.playOver hplayed).2, ?_⟩
  · obtain ⟨hcut, hroom⟩ := hf.source source hcontent
    have hthrough := hf.through_le
    simp only [handedOut, hcontent, Option.map_some, Option.getD_some] at hthrough
    exact ⟨hthrough, Nat.le_trans (Nat.le_add_right _ _) hroom⟩
  · intro session kind after result w hattempt digest parts answer hcommit
    have hattempted := history_attempt_iff.1 hattempt
    obtain ⟨⟨hf', -⟩, -⟩ :=
      (kept_faithful session 0).of_attempted hattempted ⟨hf, Nat.zero_le _⟩ fun _ _ => trivial
    obtain ⟨rest, hfinish, hmem⟩ := hattempted.finish_of_committed hcommit
    obtain ⟨rfl, -, -⟩ := hfinish.of_committed hmem
    exact ⟨hf'.finish_eq, Nat.le_trans hf'.through_le hf'.handedOut_le⟩

/-- Two bytes are read and hashed as one part, which is sent in vain. The session then has parts of
one byte and lists both, and the commit passes the digest of the two bytes, each hashed once. -/
theorem hashes_two_bytes_once :
    let whole : Session := ⟨"two", 1, 2⟩
    let halves : Session := ⟨"two", 2, 1⟩
    let reader : Reader := .ofBytes [1, 2]
    ∃ (before after : List (Transfer.Event String)) (u w : Uploader) (digest : Sha1.Digest)
        (parts : List Part),
      History (playOver [(whole, .attempt .start)] (.ofReader reader 2)) before u ∧
      u.slot = .holding ⟨0, [1, 2]⟩ ∧
      History (u.attempt halves .resume) after (.error (.session "reset"), w) ∧
      .committed digest parts (.error (.session "reset")) ∈ after ∧ digest = Sha1.hash [1, 2] := by
  intro whole halves reader
  let first : Part := ⟨"a", 0, 1, ""⟩
  let second : Part := ⟨"b", 1, 1, ""⟩
  let read : Uploader :=
    { ofReader reader 2 with content := some ⟨⟨[.data [] none], [2]⟩, 2, [], false⟩ }
  obtain ⟨u, _, hheld, hsize, hthrough, hslot, hactive⟩ :
      ∃ (u : Uploader) (sent : List (Transfer.Event String)),
        Turn whole (ofReader reader 2) sent (.error (.session "reset"), u) ∧
        u.fileSize = 2 ∧ u.digestedThrough = 2 ∧ u.slot = .holding ⟨0, [1, 2]⟩ ∧
        u.aborted = false :=
    ⟨_, _, @Turn.held _ _ _ ⟨0, [1, 2]⟩ _ read (by cbv) (by cbv), by cbv, by cbv, by cbv, by cbv⟩
  have hturns : Turns whole 1 (ofReader reader 2) _ _ := .failed hheld
  have hmoved : Moved whole (ofReader reader 2) (.attempt .start) _ u :=
    .attempt (.start rfl (.stopped (Geometry.check_eq_ok_iff.2 (by decide)) hturns))
  have hbefore : History (playOver [(whole, .attempt .start)] (.ofReader reader 2)) _ u :=
    history_do_iff.2 ⟨_, u, [], rfl, history_move_iff.2 hmoved, .done u⟩
  -- The part in flight begins where the first half does, and so counts as landed.
  let v : Uploader := u.adopt [first, second]
  have hcommitted : v.committed = [first] := by
    simp [v, first, second, adopt, hslot, Slot.offset?, Slot.part?, reconcile,
      Reconciliation.byOffset, List.mergeSort, Reconciliation.firstOfEach, Reconciliation.run,
      Part.stop]
  have hidle : v.slot = .idle := by
    simp [v, first, second, adopt, hslot, Slot.offset?, Slot.part?, reconcile]
  have hknown : v.known[1]? = some second := by
    show (PartIndex.ofListing [first, second])[1]? = some second
    cbv
  have hone : v.committed.length * halves.partSize.toNat = 1 := by rw [hcommitted]; rfl
  have hthrough' : v.digestedThrough = 2 := hthrough
  have hnext : v.next (ε := String) halves.partSize.toNat = (.ok (.recorded second), v) :=
    next_of_known hidle (by rw [hone, hthrough']; decide) (hone.symm ▸ hknown)
  let w : Uploader := v.account second
  have hrest : Turns (ε := String) halves (halves.totalParts.toNat - v.committed.length) v
      [w.accounted halves] (.ok (), w) := by
    rw [hcommitted]
    exact .more (.recalled hnext) (.done w)
  have hresume := history_attempt_iff.2 (.resume hactive (.refused (e := .session "reset")
    (hsize.symm ▸ Geometry.check_eq_ok_iff.2 (by decide)) hrest))
  have hmem := List.mem_cons_of_mem (Transfer.Event.listed (.ok [first, second]))
    (List.mem_append_right [w.accounted halves] (List.mem_cons_of_mem
      (Transfer.Event.reported (w.progress halves .committing)) (List.mem_singleton_self
        (Transfer.Event.committed w.digest.finish w.committed (.error (.session "reset"))))))
  obtain ⟨-, -, -, -, hcommits⟩ := hashes_each_byte_once hbefore
  obtain ⟨hdigest, -⟩ := hcommits _ _ _ _ _ hresume _ _ _ hmem
  refine ⟨_, _, u, w, _, _, hbefore, hslot, hresume, hmem, hdigest.trans ?_⟩
  rw [show w.digestedThrough = 2 from hthrough]
  rfl

end Uploader

end ResumableUpload
