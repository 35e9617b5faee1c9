import ResumableUpload.Proofs.Bytes.RollingDigest
import ResumableUpload.Proofs.Transfer.Course
import ResumableUpload.Proofs.Transfer.Layout
import ResumableUpload.Proofs.Transfer.Search

/-!
# What an upload keeps, whatever its session does

Between two turns of its loop an upload has hashed the content of the first so many parts, and its
stream stands behind them (`Uploader.Sound`). A part in the slot is the last of them. This holds
whatever the session lists, answers or refuses, and however the stream delivers its bytes, because
the only way to get on is `Uploader.next`, and what that can come to is little (`Drawn`).

`Turn.step` says what a turn of the loop does in a sound state. Everything that is shown of the
loop goes by the cases of `Step`.
-/

namespace ResumableUpload

/-! ## Where a stream stands -/

/-- Where a source may stand when the first `k` parts have been hashed. -/
inductive Layout.Poised (l : Layout) (k : Nat) (s : Source) : Prop
  /-- At the begin of the next part; some of its bytes may wait. -/
  | before (hposition : s.position = l.reach k)
      (hpending : s.position + s.pending.length ≤ l.reach (k + 1))
  /-- Inside the next part, where the stream has ended. -/
  | inside (hlow : l.reach k < s.position) (hhigh : s.position < l.reach (k + 1))
      (hend : s.position = l.content.length) (hpending : s.pending = [])

namespace Layout.Poised

variable {l : Layout} {k i : Nat} {s : Source}

/-- A source that stands at the begin of a part is about to read the part after those hashed. -/
theorem eq_of_position (h : l.Poised k s) (hi : i < l.count)
    (hposition : s.position = i * l.partSize) : k = i := by
  cases h with
  | before hreach _ =>
    have hik : ¬i < k := by
      rw [← l.mul_lt_reach_iff hi]
      omega
    have hki : ¬k < i := by
      intro hlt
      have := l.reach_of_lt (Nat.lt_trans hlt hi)
      have := Nat.mul_lt_mul_of_pos_right hlt l.partSize_pos
      omega
    omega
  | inside hlow hhigh _ _ => exact absurd hposition (l.ne_mul_of_reach_lt hlow hhigh i)

/-- A source is nowhere beyond the next part. -/
theorem position_add_pending_le (h : l.Poised k s) :
    s.position + s.pending.length ≤ l.reach (k + 1) := by
  cases h with
  | before _ hpending => exact hpending
  | inside _ hhigh _ hpending =>
    rw [hpending]
    exact Nat.le_of_lt hhigh

/-- A chunk that is too short for the next part leaves the source at the end of the stream. -/
theorem of_short (hi : i < l.count) (hlength : l.reach i ≤ l.content.length)
    (hposition : s.position = i * l.partSize + (l.piece i).chunk.length) (hpending : s.pending = [])
    (hshort : (l.piece i).chunk.length ≠ l.partLength i) :
    l.content.length < l.reach (i + 1) ∧ l.Poised i s := by
  have hreach := l.reach_of_lt hi
  have hnext := l.reach_succ hi
  simp only [piece, Bytes.length_slice] at hposition hshort
  have hend : s.position = l.content.length := by omega
  refine ⟨by omega, ?_⟩
  by_cases hnone : s.position = l.reach i
  · exact .before hnone (by rw [hpending, List.length_nil]; omega)
  · exact .inside (by omega) (by omega) hend hpending

end Layout.Poised

namespace Uploader

/-- The failing reads that the content of an upload has in store. -/
def failures (u : Uploader) : Nat := (u.content.map fun s => s.reader.failures).getD 0

/-- The first `k` parts have been hashed, and no more has been read than there waits. -/
structure Sound (l : Layout) (k : Nat) (u : Uploader) : Prop where
  fileSize_eq : u.fileSize = l.fileSize
  count_le : k ≤ l.count
  through_eq : u.digestedThrough = l.reach k
  digest_eq : u.digest = Sha1.Rolling.empty.feed (l.content.take (l.reach k))
  length_le : l.reach k ≤ l.content.length
  /-- The part in the slot is the last one that has been hashed. -/
  slot_eq : ∀ part, u.slot = .holding part → ∃ i, k = i + 1 ∧ part = l.piece i
  /-- Only an upload that has been given up has no content. -/
  released : u.content = none → u.aborted = true
  source : ∀ s, u.content = some s → s.CutFrom l.stream ∧ l.Poised k s

variable {l : Layout} {k i : Nat} {u v w : Uploader}

/-- An upload that has not begun is sound. -/
theorem sound_ofReader (l : Layout) : (ofReader l.stream l.fileSize).Sound l 0 where
  fileSize_eq := rfl
  count_le := Nat.zero_le _
  through_eq := l.reach_zero.symm
  digest_eq := by rw [l.reach_zero, List.take_zero]; rfl
  length_le := by rw [l.reach_zero]; exact Nat.zero_le _
  slot_eq := nofun
  released := nofun
  source := by
    rintro _ ⟨⟩
    exact ⟨Source.cutFrom_ofReader l.stream, .before l.reach_zero.symm (Nat.zero_le _)⟩

/-- What counts as committed and what is known has no part in soundness. -/
theorem Sound.account (h : u.Sound l k) (part : Part) : (u.account part).Sound l k := { h with }

/-- Taking over a listing can only empty the slot. -/
theorem Sound.adopt (h : u.Sound l k) (listing : List Part) : (u.adopt listing).Sound l k :=
  { h with
    slot_eq := by
      intro part hslot
      simp only [Uploader.adopt] at hslot
      split at hslot
      · cases hslot
      · exact h.slot_eq part hslot }

theorem Sound.giveUp (h : u.Sound l k) : u.giveUp.Sound l k :=
  { h with
    slot_eq := nofun
    released := fun _ => rfl
    source := nofun }

/-- Another source that stands between the same parts can take the place of the content. -/
theorem Sound.withSource (h : u.Sound l k) {s : Source} (hcut : s.CutFrom l.stream)
    (hpoised : l.Poised k s) : { u with content := some s }.Sound l k :=
  { h with
    released := nofun
    source := by
      rintro _ ⟨⟩
      exact ⟨hcut, hpoised⟩ }

/-! ## Finding what accounts for a part -/

/-- The next part is at hand and hashed, and nothing else has changed. -/
structure Ready (l : Layout) (k : Nat) (u v : Uploader) : Prop where
  sound : v.Sound l (u.committed.length + 1)
  slot_eq : v.slot = .idle
  committed_eq : v.committed = u.committed
  known_eq : v.known = u.known
  aborted_eq : v.aborted = u.aborted
  failures_le : v.failures ≤ u.failures
  /-- The part has been read just now, or it was in the slot. -/
  origin : u.slot = .idle ∧ k = u.committed.length ∨
    u.slot = .holding (l.piece u.committed.length) ∧ k = u.committed.length + 1

/-- The next part has been read before, and is not in the slot. -/
def Behind (l : Layout) (k : Nat) (u : Uploader) : Prop :=
  match u.slot with
  | .idle => u.committed.length < k
  | .holding part => part ≠ l.piece u.committed.length

/-- What looking for the next part comes to in a sound state. -/
inductive Drawn {ε : Type} (l : Layout) (k : Nat) (u : Uploader) :
    Except (TransferError ε) Next × Uploader → Prop
  | atHand {w : Uploader} (hready : Ready l k u (w.hash (l.piece u.committed.length))) :
      Drawn l k u (.ok (.atHand (l.piece u.committed.length)), w)
  | recorded {record : Part} (hbehind : u.Behind l k)
      (hknown : u.known[u.committed.length * l.partSize]? = some record) :
      Drawn l k u (.ok (.recorded record), u)
  | missing (hbehind : u.Behind l k) (hknown : u.known[u.committed.length * l.partSize]? = none) :
      Drawn l k u (.error (.partUnavailable (u.committed.length * l.partSize)), u)
  /-- Reading fails; the bytes that have been read wait. -/
  | interrupted {cause : String} {s : Source} (hidle : u.slot = .idle)
      (hnext : k = u.committed.length) (hsound : { u with content := some s }.Sound l k)
      (hfailures : s.reader.failures < u.failures) :
      Drawn l k u (.error (.io cause), { u with content := some s })
  /-- The stream ends inside the part. -/
  | torn {s : Source} (hidle : u.slot = .idle) (hnext : k = u.committed.length)
      (hshort : l.content.length < l.reach (k + 1))
      (hsound : { u with content := some s }.Sound l k) :
      Drawn l k u (.error (.truncatedStream (u.committed.length * l.partSize)),
        { u with content := some s })
  /-- The stream does not stand at the part, which has not been read. -/
  | stranded {s : Source} (hidle : u.slot = .idle) (hahead : k ≤ u.committed.length)
      (hcontent : u.content = some s) (hposition : s.position ≠ u.committed.length * l.partSize) :
      Drawn l k u (.error (.partUnavailable (u.committed.length * l.partSize)), u)
  | released (hidle : u.slot = .idle) (hcontent : u.content = none) :
      Drawn l k u (.error .aborted, u)

/-- A part that begins before the end of what is hashed is not hashed again. -/
theorem hash_of_lt {part : InFlight} (h : part.offset < u.digestedThrough) : u.hash part = u :=
  if_neg (Nat.ne_of_lt h)

/-- The part in the slot is ready when it is next. -/
theorem ready_of_holding (h : u.Sound l (i + 1)) (hslot : u.slot = .holding (l.piece i))
    (hnext : i = u.committed.length) :
    Ready l (i + 1) u ({ u with slot := .idle }.hash (l.piece i)) := by
  have hi : i < l.count := h.count_le
  have hhashed : { u with slot := .idle }.hash (l.piece i) = { u with slot := .idle } := by
    refine hash_of_lt ?_
    show i * l.partSize < u.digestedThrough
    rw [h.through_eq, l.mul_lt_reach_iff hi]
    exact Nat.lt_succ_self i
  rw [hhashed]
  subst hnext
  exact ⟨{ h with slot_eq := nofun }, rfl, rfl, rfl, rfl, Nat.le_refl _, .inr ⟨hslot, rfl⟩⟩

/-- A part that has just been read in full is ready. -/
theorem ready_of_read {s t : Source} (h : u.Sound l i) (hi : i < l.count) (hslot : u.slot = .idle)
    (hnext : i = u.committed.length) (hcontent : u.content = some s) (hcut : t.CutFrom l.stream)
    (hposition : t.position = i * l.partSize + (l.piece i).chunk.length) (hpending : t.pending = [])
    (hfailures : t.reader.failures ≤ s.reader.failures)
    (hfull : (l.piece i).chunk.length = l.partLength i) :
    Ready l i u ({ u with content := some t }.hash (l.piece i)) := by
  have hreach := l.reach_succ hi
  have hlength : l.reach (i + 1) ≤ l.content.length := by
    have hpos := l.partLength_pos hi
    simp only [Layout.piece, Bytes.length_slice] at hfull
    omega
  have hbegin : (l.piece i).offset = u.digestedThrough := by
    rw [h.through_eq, l.reach_of_lt hi]
    rfl
  rw [Uploader.hash, if_pos hbegin]
  subst hnext
  refine ⟨⟨h.fileSize_eq, hi, l.stop_piece hi hlength, ?_, hlength, ?_, ?_, ?_⟩,
    hslot, rfl, rfl, rfl, ?_, .inl ⟨hslot, rfl⟩⟩
  · simp only [h.digest_eq, l.take_reach_succ hi, Sha1.Rolling.feed_append]
  · intro part hpart
    rw [show u.slot = .holding part from hpart] at hslot
    cases hslot
  · intro hnone
    cases hnone
  · rintro _ ⟨⟩
    refine ⟨hcut, .before (by rw [hposition, hfull, hreach]) ?_⟩
    rw [hpending, hposition, hfull, ← hreach]
    exact l.reach_mono (Nat.le_succ _)
  · simpa only [failures, hcontent, Option.map_some, Option.getD_some] using hfailures

/-- A part that has been passed is behind. -/
theorem Sound.behind_of_passed (h : u.Sound l k) (hnext : u.committed.length < l.count)
    (hpassed : u.Passed (u.committed.length * l.partSize)) : u.Behind l k := by
  rw [Passed] at hpassed
  rw [Behind]
  cases hslot : u.slot with
  | idle =>
    rw [hslot] at hpassed
    exact (l.mul_lt_reach_iff hnext).1 (h.through_eq ▸ hpassed)
  | holding part =>
    rw [hslot] at hpassed
    exact fun heq => hpassed (congrArg InFlight.offset heq)

/-- A source that stands at the next part has room for it, and fails, or hands out the part and
stands behind it. -/
theorem Sound.nextChunk_cases (h : u.Sound l k) (hnext : u.committed.length < l.count)
    {s t : Source} (hcontent : u.content = some s)
    (hposition : s.position = u.committed.length * l.partSize) {result : Except String Bytes}
    (hchunk : s.nextChunk (Geometry.partLength u.fileSize.toNat l.partSize
      (u.committed.length * l.partSize)) = (result, t)) :
    k = u.committed.length ∧ t.CutFrom l.stream ∧
      ((∃ cause, result = .error cause ∧ l.Poised k t ∧
        t.reader.failures < s.reader.failures) ∨
      (result = .ok (l.piece u.committed.length).chunk ∧ t.pending = [] ∧
        t.position = u.committed.length * l.partSize + (l.piece u.committed.length).chunk.length ∧
        t.reader.failures ≤ s.reader.failures)) := by
  obtain ⟨hcut, hpoised⟩ := h.source s hcontent
  obtain rfl := hpoised.eq_of_position hnext hposition
  have hlength : Geometry.partLength u.fileSize.toNat l.partSize
      (u.committed.length * l.partSize) = l.partLength u.committed.length := by
    rw [h.fileSize_eq]
    rfl
  have hroom : s.pending.length ≤ l.partLength u.committed.length := by
    have := hpoised.position_add_pending_le
    rw [hposition, l.reach_succ hnext] at this
    omega
  rw [hlength] at hchunk
  refine ⟨rfl, ?_⟩
  rcases Source.nextChunk_cases hcut hroom with
    ⟨cause, t', hchunk', hcut', hposition', hroom', hfailures⟩ |
    ⟨t', hchunk', hcut', hposition', hpending', hfailures⟩
  · cases hchunk.symm.trans hchunk'
    refine ⟨hcut', .inl ⟨cause, rfl, .before ?_ ?_, hfailures⟩⟩
    · rw [hposition', hposition, l.reach_of_lt hnext]
    · rw [hposition', hposition, l.reach_succ hnext]
      omega
  · cases hchunk.symm.trans hchunk'
    rw [hposition] at hposition' ⊢
    exact ⟨hcut', .inr ⟨rfl, hpending', hposition', hfailures⟩⟩

/-- What finding the next part comes to. -/
theorem next_drawn {ε : Type} (h : u.Sound l k) (hnext : u.committed.length < l.count) :
    Drawn (ε := ε) l k u (u.next l.partSize) := by
  have hsought := next_sought (ε := ε) u l.partSize
  generalize u.next (ε := ε) l.partSize = out at hsought
  cases hsought with
  | waiting hslot hoffset =>
    obtain ⟨i, rfl, rfl⟩ := h.slot_eq _ hslot
    obtain rfl := l.mul_inj (show i * l.partSize = u.committed.length * l.partSize from hoffset)
    exact .atHand (ready_of_holding h hslot rfl)
  | recorded hpassed hknown => exact .recorded (h.behind_of_passed hnext hpassed) hknown
  | missing hpassed hknown => exact .missing (h.behind_of_passed hnext hpassed) hknown
  | @read s t chunk hidle _ hcontent hposition hchunk hfull =>
    obtain ⟨rfl, hcut, ⟨_, hresult, -⟩ | ⟨hresult, hpending, hposition', hfailures⟩⟩ :=
      h.nextChunk_cases hnext hcontent hposition hchunk
    · cases hresult
    · cases hresult
      exact .atHand (ready_of_read h hnext hidle rfl hcontent hcut hposition' hpending hfailures
        (by rw [hfull, h.fileSize_eq]; rfl))
  | @interrupted s t cause hidle _ hcontent hposition hchunk =>
    obtain ⟨rfl, hcut, ⟨_, hresult, hpoised, hfailures⟩ | ⟨hresult, -⟩⟩ :=
      h.nextChunk_cases hnext hcontent hposition hchunk
    · refine .interrupted hidle rfl (h.withSource hcut hpoised) ?_
      simpa only [failures, hcontent, Option.map_some, Option.getD_some] using hfailures
    · cases hresult
  | @torn s t chunk hidle _ hcontent hposition hchunk hpartial =>
    obtain ⟨rfl, hcut, ⟨_, hresult, -⟩ | ⟨hresult, hpending, hposition', -⟩⟩ :=
      h.nextChunk_cases hnext hcontent hposition hchunk
    · cases hresult
    · cases hresult
      obtain ⟨hshort, hpoised⟩ := Layout.Poised.of_short hnext h.length_le hposition' hpending
        (by rw [h.fileSize_eq] at hpartial; exact hpartial)
      exact .torn hidle rfl hshort (h.withSource hcut hpoised)
  | stranded hidle hahead hcontent hposition =>
    rw [h.through_eq] at hahead
    exact .stranded hidle (Nat.le_of_not_lt fun hlt =>
      Nat.not_lt.2 hahead ((l.mul_lt_reach_iff hnext).2 hlt)) hcontent hposition
  | released hidle hcontent => exact .released hidle hcontent

/-! ## One turn of the loop -/

/-- What a turn of the loop does in a sound state. -/
inductive Step {ε : Type} (session : Session) (l : Layout) (k : Nat) (u : Uploader) :
    List (Transfer.Event ε) → Except (TransferError ε) Unit × Uploader → Prop
  /-- The part was read before, and its record is known. -/
  | recalled {record : Part} (hbehind : u.Behind l k)
      (hknown : u.known[u.committed.length * l.partSize]? = some record) :
      Step session l k u [(u.account record).accounted session] (.ok (), u.account record)
  /-- The part is at hand, and its record is known. -/
  | reused {record : Part} {v : Uploader} (hready : Ready l k u v)
      (hknown : u.known[u.committed.length * l.partSize]? = some record) :
      Step session l k u [(v.account record).accounted session] (.ok (), v.account record)
  /-- The part is sent. -/
  | stored {record : Part} {v : Uploader} (hready : Ready l k u v)
      (hknown : u.known[u.committed.length * l.partSize]? = none) :
      Step session l k u
        [.sent (l.piece u.committed.length).chunk (u.committed.length * l.partSize) l.fileSize
          (.ok record), (v.account record).accounted session]
        (.ok (), v.account record)
  /-- The part is sent in vain. -/
  | held {e : TransferError ε} {v : Uploader} (hready : Ready l k u v)
      (hknown : u.known[u.committed.length * l.partSize]? = none) :
      Step session l k u
        [.sent (l.piece u.committed.length).chunk (u.committed.length * l.partSize) l.fileSize
          (.error e)]
        (.error e, { v with slot := .holding (l.piece u.committed.length) })
  /-- There is no part at hand and no record of it. -/
  | failed {e : TransferError ε} {w : Uploader} (hdrawn : Drawn l k u (.error e, w)) :
      Step session l k u [] (.error e, w)

variable {ε : Type} {session : Session} {events : List (Transfer.Event ε)}

/-- A turn of the loop in a sound state is one of these steps. -/
theorem Turn.step {out : Except (TransferError ε) Unit × Uploader}
    (h : Turn session u events out) (hs : u.Sound l k) (hsize : l.partSize = session.partSize.toNat)
    (hnext : u.committed.length < l.count) : Step session l k u events out := by
  have hdrawn := next_drawn (ε := ε) hs hnext
  rw [hsize] at hdrawn
  cases h with
  | failed hturn =>
    rw [hturn] at hdrawn
    exact .failed hdrawn
  | recalled hturn =>
    rw [hturn] at hdrawn
    cases hdrawn with
    | recorded hbehind hknown => exact .recalled hbehind hknown
  | reused hturn hknown =>
    rw [hturn] at hdrawn
    cases hdrawn with
    | atHand hready => exact .reused hready (hready.known_eq ▸ hknown)
  | stored hturn hknown =>
    rw [hturn] at hdrawn
    cases hdrawn with
    | atHand hready =>
      rw [hready.sound.fileSize_eq]
      exact .stored hready (hready.known_eq ▸ hknown)
  | held hturn hknown =>
    rw [hturn] at hdrawn
    cases hdrawn with
    | atHand hready =>
      rw [hready.sound.fileSize_eq]
      exact .held hready (hready.known_eq ▸ hknown)

/-- A part that is ready can wait in the slot. -/
theorem Ready.hold (h : Ready l k u v) :
    { v with slot := .holding (l.piece u.committed.length) }.Sound l (u.committed.length + 1) :=
  { h.sound with
    slot_eq := by
      rintro _ ⟨⟩
      exact ⟨_, rfl, rfl⟩ }

/-- What has been hashed stays hashed. -/
theorem Ready.le (h : Ready l k u v) : k ≤ u.committed.length + 1 := by
  rcases h.origin with ⟨_, rfl⟩ | ⟨_, rfl⟩
  · exact Nat.le_succ _
  · exact Nat.le_refl _

/-- A failure to find a part changes nothing but the content. -/
theorem Drawn.sound_of_error {e : TransferError ε} (h : Drawn l k u (.error e, w))
    (hs : u.Sound l k) : w.Sound l k ∧ w = { u with content := w.content } := by
  cases h with
  | missing => exact ⟨hs, rfl⟩
  | interrupted _ _ hsound => exact ⟨hsound, rfl⟩
  | torn _ _ _ hsound => exact ⟨hsound, rfl⟩
  | stranded => exact ⟨hs, rfl⟩
  | released => exact ⟨hs, rfl⟩

/-- A step leads to a sound state, in which no fewer parts are hashed. -/
theorem Step.sound {out : Except (TransferError ε) Unit × Uploader}
    (h : Step session l k u events out) (hs : u.Sound l k) : ∃ j, k ≤ j ∧ out.2.Sound l j := by
  cases h with
  | recalled => exact ⟨k, Nat.le_refl k, hs.account _⟩
  | reused hready => exact ⟨_, hready.le, hready.sound.account _⟩
  | stored hready => exact ⟨_, hready.le, hready.sound.account _⟩
  | held hready => exact ⟨_, hready.le, hready.hold⟩
  | failed hdrawn => exact ⟨k, Nat.le_refl k, (hdrawn.sound_of_error hs).1⟩

end Uploader

end ResumableUpload
