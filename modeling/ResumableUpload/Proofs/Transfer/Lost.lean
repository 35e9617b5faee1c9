import Mathlib.Order.Bounds.Image
import ResumableUpload.Proofs.Transfer.Committing
import ResumableUpload.Proofs.Transfer.Hashing
import ResumableUpload.Proofs.Transfer.Rounds

/-!
# Parts that are lost

The bytes of a part that has been read are gone from the stream. Only a listed record can account
for it then, or its bytes in the slot. A part that has neither is lost (`Uploader.lost`), and a
resumption says so exactly if there is one, and names the first (`part_unavailable_iff_lost`).

The loop raises the error in three places: behind a gap below the part in the slot, at a part that
has been read with nothing in the slot, and where the stream does not stand at the next part. The
last of them does not come up unless the stream has ended inside a part before (`Level`). For the
other two it is enough to follow the parts that are missing between the records that count and the
end of what is hashed (`Uploader.missing`): a turn that succeeds leaves them as they are.
-/

namespace ResumableUpload

variable {ε : Type}

/-- The session itself answers that a part is unavailable. Its own failures are of another kind. -/
def Transfer.Event.BlamesPart : Transfer.Event ε → Prop
  | ⟨.listParts, .error (.partUnavailable _)⟩ => True
  | ⟨.sendPart _ _ _, .error (.partUnavailable _)⟩ => True
  | ⟨.commit _ _, .error (.partUnavailable _)⟩ => True
  | _ => False

namespace Uploader

open Program (History Follows history_do_iff history_pure_iff)

variable {session : Session} {stream : Reader} {fileSize : UInt64} {l : Layout} {k : Nat}
  {u v w : Uploader} {events : List (Transfer.Event ε)}

/-! ## Where the stream stands -/

/-- An upload that is going on, and whose stream stands where its digest ends. -/
structure Level (u : Uploader) : Prop where
  active : u.aborted = false
  position_eq : ∀ s, u.content = some s → s.position = u.digestedThrough

/-- An upload that has not begun is level. -/
theorem level_ofReader (stream : Reader) (fileSize : UInt64) :
    (ofReader stream fileSize).Level where
  active := rfl
  position_eq := by
    rintro _ ⟨⟩
    rfl

theorem Level.account (h : u.Level) (part : Part) : (u.account part).Level := { h with }

theorem Level.adopt (h : u.Level) (listing : List Part) : (u.adopt listing).Level := { h with }

/-- Finding a part and hashing it keeps an upload level: if it is read, the digest moves on with the
stream, and if it was in the slot, neither of them does. -/
theorem Level.hash_found {partSize : Nat} {part : InFlight} (h : u.Level)
    (hf : u.Faithful stream fileSize)
    (hsought : Sought (ε := ε) partSize u (.ok (.atHand part), w)) : (w.hash part).Level := by
  cases hsought with
  | waiting hslot =>
    rw [hash]
    split
    next hbegin =>
      refine ⟨h.active, fun s hcontent => ?_⟩
      obtain ⟨-, hstop⟩ := hf.slot_slice part hslot
      have hposition := h.position_eq s hcontent
      have hhanded : u.handedOut stream = s.position := by
        simp only [handedOut, show u.content = some s from hcontent, Option.map_some,
          Option.getD_some]
      show s.position = part.stop
      simp only [InFlight.stop] at hstop ⊢
      have : part.offset = u.digestedThrough := hbegin
      omega
    next => exact ⟨h.active, h.position_eq⟩
  | @read s t chunk _ _ hcontent hposition hchunk =>
    have hbegin : u.committed.length * partSize = u.digestedThrough :=
      hposition ▸ h.position_eq s hcontent
    obtain ⟨-, -, -, hok⟩ := (hf.source s hcontent).1.of_nextChunk hchunk
    rw [hash, if_pos hbegin]
    refine ⟨h.active, ?_⟩
    rintro _ ⟨⟩
    show t.position = u.committed.length * partSize + chunk.length
    rw [← hposition]
    exact (hok chunk rfl).2

/-- A turn keeps an upload level, unless it finds that the stream has ended. -/
theorem Turn.level {out : Except (TransferError ε) Unit × Uploader}
    (h : Turn session u events out) (hf : u.Faithful stream fileSize) (hl : u.Level)
    (hfull : ∀ offset, out.1 ≠ .error (.truncatedStream offset)) : out.2.Level := by
  have hsought := next_sought (ε := ε) u session.partSize.toNat
  cases h with
  | failed hnext =>
    rw [hnext] at hsought
    cases hsought with
    | missing => exact hl
    | @interrupted s t cause _ _ hcontent _ hchunk =>
      refine ⟨hl.active, ?_⟩
      rintro _ ⟨⟩
      obtain ⟨-, -, herror, -⟩ := (hf.source s hcontent).1.of_nextChunk hchunk
      exact (herror cause rfl).trans (hl.position_eq s hcontent)
    | torn => exact absurd rfl (hfull _)
    | stranded => exact hl
    | released => exact hl
  | recalled hnext =>
    rw [hnext] at hsought
    cases hsought with
    | recorded => exact hl.account _
  | reused hnext => exact (hl.hash_found hf (hnext ▸ hsought)).account _
  | stored hnext => exact (hl.hash_found hf (hnext ▸ hsought)).account _
  | held hnext => exact { hl.hash_found hf (hnext ▸ hsought) with }

/-- The loop keeps an upload level, unless it finds that the stream has ended. -/
theorem Turns.level {count : Nat} {out : Except (TransferError ε) Unit × Uploader}
    (h : Turns session count u events out) (hf : u.Faithful stream fileSize) (hl : u.Level)
    (hfull : ∀ offset, out.1 ≠ .error (.truncatedStream offset)) : out.2.Level := by
  induction h with
  | done => exact hl
  | failed hturn => exact hturn.level hf hl hfull
  | more hturn _ ih => exact ih (hturn.faithful hf).1 (hturn.level hf hl nofun) hfull

theorem Finish.level {out : Except (TransferError ε) RemoteFile × Uploader}
    (h : Finish session u events out) (hf : u.Faithful stream fileSize) (hl : u.Level)
    (hfull : ∀ offset, out.1 ≠ .error (.truncatedStream offset)) : out.2.Level := by
  cases h with
  | misfit => exact hl
  | stopped _ hturns =>
    exact hturns.level hf hl fun offset heq => hfull offset (by cases heq; rfl)
  | refused _ hturns => exact hturns.level hf hl nofun
  | committed _ hturns => exact hturns.level hf hl nofun

/-- An attempt keeps an upload level, unless it finds that the stream has ended. -/
theorem Attempted.level {kind : Attempt} {out : Except (TransferError ε) RemoteFile × Uploader}
    (h : Attempted session u kind events out) (hf : u.Faithful stream fileSize) (hl : u.Level)
    (hfull : ∀ offset, out.1 ≠ .error (.truncatedStream offset)) : out.2.Level := by
  cases h with
  | aborted => exact hl
  | start _ hfinish => exact hfinish.level hf hl hfull
  | unlisted => exact hl
  | resume _ hfinish => exact hfinish.level (hf.adopt _) (hl.adopt _) hfull

/-! ## Attempts and what comes out of them -/

/-- One attempt after the other; what comes out of each is kept. -/
def attemptAll (session : Session) : List Attempt → Uploader →
    Program (Transfer ε) (List (Except (TransferError ε) RemoteFile) × Uploader)
  | [], u => pure ([], u)
  | kind :: kinds, u => do
    let (result, u) ← u.attempt session kind
    let (results, u) ← attemptAll session kinds u
    pure (result :: results, u)

/-- No attempt does nothing. -/
theorem history_attemptAll_nil_iff {results : List (Except (TransferError ε) RemoteFile)} :
    History (attemptAll session [] u) events (results, w) ↔ events = [] ∧ results = [] ∧ w = u := by
  rw [attemptAll, history_pure_iff, Prod.mk.injEq]

/-- The first attempt is made, and then the others. -/
theorem history_attemptAll_cons_iff {kind : Attempt} {kinds : List Attempt}
    {results : List (Except (TransferError ε) RemoteFile)} :
    History (attemptAll session (kind :: kinds) u) events (results, w) ↔
      ∃ first later result v others, events = first ++ later ∧ results = result :: others ∧
        Attempted session u kind first (result, v) ∧
        History (attemptAll session kinds v) later (others, w) := by
  simp only [attemptAll, history_do_iff, history_attempt_iff, history_pure_iff]
  constructor
  · rintro ⟨first, ⟨result, v⟩, _, rfl, hfirst, later, ⟨others, w'⟩, _, rfl, hlater, rfl, hout⟩
    cases hout
    exact ⟨first, later, result, v, others, by rw [List.append_nil], rfl, hfirst, hlater⟩
  · rintro ⟨first, later, result, v, others, rfl, rfl, hfirst, hlater⟩
    exact ⟨first, (result, v), later, rfl, hfirst, later, (others, w), [],
      (List.append_nil later).symm, hlater, rfl, rfl⟩

/-- What each attempt keeps if it comes out well enough, all of them keep. -/
theorem keeps_attemptAll (inv : Uploader → Prop)
    (fair : Except (TransferError ε) RemoteFile → Prop)
    (hattempt : ∀ {u w : Uploader} {kind : Attempt} {events : List (Transfer.Event ε)}
      {result : Except (TransferError ε) RemoteFile},
      Attempted session u kind events (result, w) → fair result → inv u → inv w)
    {kinds : List Attempt} {results : List (Except (TransferError ε) RemoteFile)}
    (h : History (attemptAll session kinds u) events (results, w))
    (hfair : ∀ result ∈ results, fair result) (hinv : inv u) : inv w := by
  induction kinds generalizing u events results with
  | nil =>
    obtain ⟨-, -, rfl⟩ := history_attemptAll_nil_iff.1 h
    exact hinv
  | cons kind kinds ih =>
    obtain ⟨_, _, result, v, others, -, rfl, hfirst, hlater⟩ := history_attemptAll_cons_iff.1 h
    obtain ⟨hfair, hfair'⟩ := List.forall_mem_cons.1 hfair
    exact ih hlater hfair' (hattempt hfirst hfair hinv)

/-- Attempts over a session that fits leave an upload sound, and level unless one of them finds that
the stream has ended. -/
theorem sound_and_level_of_attemptAll (hfits : session.Fits fileSize) {kinds : List Attempt}
    {results : List (Except (TransferError ε) RemoteFile)}
    (h : History (attemptAll session kinds (.ofReader stream fileSize)) events (results, u))
    (hfull : ∀ offset, .error (.truncatedStream offset) ∉ results) :
    (∃ k, u.Sound (hfits.layout stream) k) ∧ u.Level := by
  let l : Layout := hfits.layout stream
  refine keeps_attemptAll (fun v => (∃ k, v.Sound l k) ∧ v.Level)
    (fun result => ∀ offset, result ≠ .error (.truncatedStream offset)) ?_ h
    (fun result hmem offset heq => hfull offset (heq ▸ hmem))
    ⟨⟨0, sound_ofReader l⟩, level_ofReader stream fileSize⟩
  rintro v w kind events result hattempted hfair ⟨⟨k, hs⟩, hl⟩
  have hsound := ((kept_sound (l := l) rfl hfits.2.symm).of_attempted hattempted ⟨k, hs⟩
    fun _ _ => trivial).1
  exact ⟨hsound, hattempted.level hs.faithful hl hfair⟩

/-! ## The loop of a resumption -/

/-- The parts behind the records that count whose bytes have been read and are not in the slot, and
of which no record is known. -/
def missing (l : Layout) (k : Nat) (u : Uploader) : Set Nat :=
  {i | u.committed.length ≤ i ∧ i < k ∧ u.slot ≠ .holding (l.piece i) ∧
    u.known[i * l.partSize]? = none}

/-- What the loop of a resumption begins with, and keeps. -/
structure Resuming (l : Layout) (k : Nat) (u : Uploader) : Prop where
  sound : u.Sound l k
  inStep : u.InStep l.partSize
  level : u.Level
  keyed : u.known.Keyed

/-- What a loop or an attempt says about the parts that are missing when it begins. -/
inductive Reports {α : Type} (missing : Set Nat) (partSize : Nat)
    (events : List (Transfer.Event ε)) : Except (TransferError ε) α → Prop
  /-- Parts are missing. It names the first of them, and the session is not asked for anything. -/
  | first {i : Nat} (hleast : IsLeast missing i) (hcalls : calls events = []) :
      Reports missing partSize events (.error (.partUnavailable (i * partSize)))
  /-- No part is missing, and it names none. -/
  | none {result : Except (TransferError ε) α} (hnone : missing = ∅)
      (hother : ∀ offset, result ≠ .error (.partUnavailable offset)) :
      Reports missing partSize events result

/-- What is reported is exact, in terms of offsets. -/
theorem Reports.exact {α : Type} {missing : Set Nat} {partSize : Nat}
    {result : Except (TransferError ε) α} (h : Reports missing partSize events result) :
    ((∃ offset, result = .error (.partUnavailable offset)) ↔
      ((· * partSize) '' missing).Nonempty) ∧
    (∀ offset, result = .error (.partUnavailable offset) ↔
      IsLeast ((· * partSize) '' missing) offset) ∧
    (((· * partSize) '' missing).Nonempty → calls events = []) := by
  cases h with
  | @first i hleast hcalls =>
    have hleast' : IsLeast ((· * partSize) '' missing) (i * partSize) :=
      Monotone.map_isLeast (fun _ _ hle => Nat.mul_le_mul_right _ hle) hleast
    refine ⟨⟨fun _ => ⟨_, hleast'.1⟩, fun _ => ⟨_, rfl⟩⟩, fun offset => ?_, fun _ => hcalls⟩
    constructor
    · rintro ⟨⟩
      exact hleast'
    · intro hother
      rw [hleast'.unique hother]
  | none hnone hother =>
    have hempty : ¬((· * partSize) '' missing).Nonempty := by
      rw [hnone, Set.image_empty]
      exact Set.not_nonempty_empty
    refine ⟨⟨?_, fun hsome => absurd hsome hempty⟩, fun offset => ⟨?_, ?_⟩,
      fun hsome => absurd hsome hempty⟩
    · rintro ⟨offset, hoffset⟩
      exact absurd hoffset (hother offset)
    · exact fun hoffset => absurd hoffset (hother offset)
    · exact fun hleast => absurd ⟨offset, hleast.1⟩ hempty

/-- Nothing is missing when all that is hashed is counted. -/
theorem missing_eq_empty (h : k ≤ u.committed.length) : u.missing l k = ∅ := by
  apply Set.eq_empty_of_forall_notMem
  rintro i ⟨hle, hlt, -⟩
  omega

/-- Nothing is missing when the next part can be made ready. -/
theorem Ready.missing_eq_empty (h : Ready l k u v) : u.missing l k = ∅ := by
  apply Set.eq_empty_of_forall_notMem
  rintro i ⟨hle, hlt, hslot, -⟩
  rcases h.origin with ⟨-, rfl⟩ | ⟨hheld, rfl⟩
  · omega
  · obtain rfl : i = u.committed.length := by omega
    exact hslot hheld

/-- Counting a record that is known of the next part leaves the missing parts as they are. -/
theorem Resuming.missing_account (h : u.Resuming l k) {record : Part}
    (hknown : u.known[u.committed.length * l.partSize]? = some record) :
    (u.account record).missing l k = u.missing l k := by
  have hoffset := h.keyed _ _ hknown
  ext i
  simp only [missing, Set.mem_ofPred_eq, length_committed_account]
  simp only [account, PartIndex.getElem?_note]
  constructor
  · rintro ⟨hle, hlt, hslot, hnone⟩
    refine ⟨by omega, hlt, hslot, ?_⟩
    split at hnone
    next => cases hnone
    next => exact hnone
  · rintro ⟨hle, hlt, hslot, hnone⟩
    have hother : i ≠ u.committed.length := by
      rintro rfl
      rw [hknown] at hnone
      cases hnone
    refine ⟨by omega, hlt, hslot, ?_⟩
    rw [if_neg fun heq => hother (l.mul_inj (hoffset.symm.trans heq)).symm]
    exact hnone

/-- A turn that succeeds leaves the missing parts as they are, and if there are any, it does not ask
the session for anything. -/
theorem Resuming.turn (h : u.Resuming l k) (hsize : l.partSize = session.partSize.toNat)
    (hnext : u.committed.length < l.count) (hturn : Turn session u events (.ok (), v)) :
    ∃ j, v.Resuming l j ∧ v.missing l j = u.missing l k ∧
      ((u.missing l k).Nonempty → calls events = []) := by
  have hlevel : v.Level := hturn.level h.sound.faithful h.level nofun
  have hstep := hturn.step h.sound hsize hnext
  have hinStep : v.InStep l.partSize := hstep.inStep h.sound h.inStep
  -- With the next part ready nothing is missing, neither before it is counted nor after.
  have hready : ∀ {w : Uploader} {record : Part}, Ready l k u w → v = w.account record →
      ∃ j, v.Resuming l j ∧ v.missing l j = u.missing l k ∧
        ((u.missing l k).Nonempty → calls events = []) := by
    rintro w record hready rfl
    refine ⟨_, ⟨hready.sound.account _, hinStep, hlevel, ?_⟩, ?_, ?_⟩
    · exact (hready.known_eq ▸ h.keyed : w.known.Keyed).note record
    · rw [hready.missing_eq_empty]
      apply missing_eq_empty
      rw [length_committed_account, hready.committed_eq]
    · rw [hready.missing_eq_empty]
      exact fun hnonempty => absurd hnonempty Set.not_nonempty_empty
  cases hstep with
  | recalled _ hknown =>
    exact ⟨k, ⟨h.sound.account _, hinStep, hlevel, h.keyed.note _⟩, h.missing_account hknown,
      fun _ => rfl⟩
  | reused h => exact hready h rfl
  | stored h => exact hready h rfl

/-- A turn that fails says what is missing. -/
theorem Resuming.reports_turn (h : u.Resuming l k) (hsize : l.partSize = session.partSize.toNat)
    (hnext : u.committed.length < l.count) {e : TransferError ε}
    (hturn : Turn session u events (.error e, w)) (hown : ∀ event ∈ events, ¬event.BlamesPart) :
    Reports (α := Unit) (u.missing l k) l.partSize events (.error e) := by
  cases hturn.step h.sound hsize hnext with
  | held hready =>
    refine .none hready.missing_eq_empty ?_
    rintro offset ⟨⟩
    exact hown _ List.mem_cons_self trivial
  | failed hdrawn =>
    cases hdrawn with
    | missing hbehind hknown =>
      obtain ⟨hlt, -⟩ := h.inStep.lt_of_behind h.sound hbehind
      have hslot : u.slot ≠ .holding (l.piece u.committed.length) := by
        intro hheld
        rw [Behind, hheld] at hbehind
        exact hbehind rfl
      exact .first ⟨⟨Nat.le_refl _, hlt, hslot, hknown⟩, fun i hi => hi.1⟩ rfl
    | interrupted _ hall => exact .none (missing_eq_empty (Nat.le_of_eq hall)) (by rintro _ ⟨⟩)
    | torn _ hall => exact .none (missing_eq_empty (Nat.le_of_eq hall)) (by rintro _ ⟨⟩)
    | stranded hidle hahead hcontent hposition =>
      -- In step, all that is hashed is counted, and the stream stands behind that.
      have hle := h.inStep.1
      rw [h.sound.hashedParts_eq] at hle
      obtain rfl : k = u.committed.length := by omega
      refine absurd ?_ hposition
      rw [h.level.position_eq _ hcontent, h.sound.through_eq, l.reach_of_lt hnext]
    | released _ hcontent =>
      have haborted := h.sound.released hcontent
      rw [h.level.active] at haborted
      cases haborted

/-- The loop says what is missing. -/
theorem Turns.reports (hsize : l.partSize = session.partSize.toNat) {count : Nat}
    {out : Except (TransferError ε) Unit × Uploader} (h : Turns session count u events out)
    (hr : u.Resuming l k) (hcount : count = l.count - u.committed.length)
    (hown : ∀ event ∈ events, ¬event.BlamesPart) :
    Reports (u.missing l k) l.partSize events out.1 := by
  induction h generalizing k with
  | done =>
    have := hr.sound.count_le
    exact .none (missing_eq_empty (by omega)) nofun
  | failed hturn => exact hr.reports_turn hsize (by omega) hturn hown
  | @more count u v first rest out hturn _ ih =>
    obtain ⟨-, hown'⟩ := List.forall_mem_append.1 hown
    have hlength := hturn.length_committed
    obtain ⟨j, hr', hsame, hcalls⟩ := hr.turn hsize (by omega) hturn
    have hreports := ih hr' (by omega) hown'
    rw [hsame] at hreports
    generalize out.1 = result at hreports
    cases hreports with
    | first hleast hrest =>
      refine .first hleast ?_
      rw [calls_append, hcalls ⟨_, hleast.1⟩, hrest]
      rfl
    | none hnone hother => exact .none hnone hother

/-- The loop and the commit say what is missing. -/
theorem Finish.reports (hsize : l.partSize = session.partSize.toNat)
    (hfits : session.Fits u.fileSize) (hcount : l.count = session.totalParts.toNat)
    {out : Except (TransferError ε) RemoteFile × Uploader} (h : Finish session u events out)
    (hr : u.Resuming l k) (hown : ∀ event ∈ events, ¬event.BlamesPart) :
    Reports (u.missing l k) l.partSize events out.1 := by
  cases h with
  | misfit hcheck =>
    rw [Geometry.check_eq_ok_iff.2 hfits] at hcheck
    cases hcheck
  | stopped _ hturns =>
    cases hturns.reports hsize hr (by rw [hcount]) hown with
    | first hleast hcalls => exact .first hleast hcalls
    | none hnone hother => exact .none hnone fun offset heq => hother offset (by cases heq; rfl)
  | refused _ hturns =>
    obtain ⟨hown, hown'⟩ := List.forall_mem_append.1 hown
    cases hturns.reports hsize hr (by rw [hcount]) hown with
    | none hnone =>
      refine .none hnone ?_
      rintro offset ⟨⟩
      exact hown' _ (List.mem_cons_of_mem _ (List.mem_singleton_self _)) trivial
  | committed _ hturns =>
    obtain ⟨hown, -⟩ := List.forall_mem_append.1 hown
    cases hturns.reports hsize hr (by rw [hcount]) hown with
    | none hnone => exact .none hnone nofun

/-! ## The resumption -/

/-- The offsets of the parts whose bytes have been read, which are not listed, and which are not in
the slot. -/
def lost (u : Uploader) (fileSize partSize : Nat) (listing : List Part) : Set Nat :=
  {offset | offset ∈ Geometry.grid fileSize partSize ∧ offset < u.digestedThrough ∧
    (∀ p ∈ listing, p.offset.toNat ≠ offset) ∧ u.slot.offset? ≠ some offset}

/-- A part in the slot that is not listed stays there. -/
theorem slot_adopt_of_unlisted {part : InFlight} (hheld : u.slot = .holding part)
    {listing : List Part} (hunlisted : ∀ p ∈ listing, p.offset.toNat ≠ part.offset) :
    (u.adopt listing).slot = .holding part := by
  have hlanded : (reconcile (some part.offset) listing).landed = false := by
    refine Bool.eq_false_iff.2 fun hany => ?_
    obtain ⟨p, hp, hsame⟩ := List.any_eq_true.1 hany
    exact hunlisted p hp (of_decide_eq_true hsame)
  simp only [adopt, hheld, Slot.offset?, Slot.part?, Option.map_some, hlanded, Bool.false_eq_true,
    if_false]

/-- Once an upload has taken over a listing, the parts that are missing are those that are lost. -/
theorem Sound.lost_eq (hs : u.Sound l k) {listing : List Part}
    (hgrid : ∀ p ∈ listing, p.OnGrid l.size l.partSize) :
    u.lost l.size l.partSize listing =
      (· * l.partSize) '' (u.adopt listing).missing l k := by
  have hcovers : l.Covers 0 (u.adopt listing).committed := covers_reconcile hgrid
  ext offset
  simp only [lost, missing, Geometry.grid, Set.mem_ofPred_eq, Set.mem_image, List.mem_map,
    List.mem_range]
  constructor
  · rintro ⟨⟨i, hi, rfl⟩, hread, hunlisted, hslot⟩
    refine ⟨i, ⟨?_, ?_, ?_, ?_⟩, rfl⟩
    · -- The records that count are listed.
      refine Nat.le_of_not_lt fun hlt => ?_
      obtain ⟨p, hp, hoffset⟩ := hcovers.exists_mem hlt
      rw [Nat.zero_add] at hoffset
      exact hunlisted p (mem_of_mem_reconcile hp) hoffset
    · rwa [hs.through_eq, l.mul_lt_reach_iff hi] at hread
    · intro hheld
      simp only [Uploader.adopt] at hheld
      split at hheld
      next => cases hheld
      next => exact hslot (by rw [hheld]; rfl)
    · cases hknown : (u.adopt listing).known[i * l.partSize]? with
      | none => rfl
      | some p =>
        obtain ⟨hp, hoffset⟩ := PartIndex.mem_of_getElem?_ofListing hknown
        exact absurd hoffset (hunlisted p hp)
  · rintro ⟨i, ⟨-, hlt, hslot, hnone⟩, rfl⟩
    have hi : i < l.count := Nat.lt_of_lt_of_le hlt hs.count_le
    have hunlisted : ∀ p ∈ listing, p.offset.toNat ≠ i * l.partSize := by
      intro p hp hoffset
      have hsome := PartIndex.isSome_getElem?_ofListing hp
      rw [hoffset, show (PartIndex.ofListing listing)[i * l.partSize]? = none from hnone] at hsome
      cases hsome
    refine ⟨⟨i, hi, rfl⟩, ?_, hunlisted, fun hoffset => hslot ?_⟩
    · rwa [hs.through_eq, l.mul_lt_reach_iff hi]
    · -- The part in the slot is not listed either, and so it stays there.
      cases hheld : u.slot with
      | idle =>
        rw [hheld] at hoffset
        cases hoffset
      | holding part =>
        rw [hheld] at hoffset
        obtain ⟨j, rfl, rfl⟩ := hs.slot_eq part hheld
        obtain rfl : j = i := l.mul_inj (Option.some.inj hoffset)
        exact slot_adopt_of_unlisted hheld hunlisted

/-- A level upload takes up a listing on the grid and resumes. -/
theorem Sound.resuming_adopt (hs : u.Sound l k) (hl : u.Level) {listing : List Part}
    (hgrid : ∀ p ∈ listing, p.OnGrid l.size l.partSize) : (u.adopt listing).Resuming l k where
  sound := hs.adopt listing
  inStep := (hs.tidy_adopt hgrid).inStep
  level := hl.adopt listing
  keyed := PartIndex.keyed_ofListing _

/-- After any sequence of attempts over a session that fits, none of which has found that the stream
has ended, a resumption comes to an end, whatever the session answers. If it is told a listing with
records of the file's parts, and the session does not answer itself that a part is unavailable, it
ends with this error exactly if a part is lost, that is, if it has been read, is not listed and is
not in the slot. Then it names the first part that is lost, and it asks the session for nothing
after the listing. It makes no difference what the session has listed or answered before. -/
theorem part_unavailable_iff_lost (hfits : session.Fits fileSize) {reader : Reader}
    {kinds : List Attempt} {before : List (Transfer.Event ε)}
    {results : List (Except (TransferError ε) RemoteFile)}
    (hbefore : History (attemptAll session kinds (.ofReader reader fileSize)) before (results, u))
    (hfull : ∀ offset, .error (.truncatedStream offset) ∉ results) :
    (∀ (listing : List Part)
        (answer : List (Transfer.Event ε) → (call : TransferCall) → call.Answer ε),
      ∃ events out, History (u.resume session) (Transfer.Event.listed (.ok listing) :: events) out ∧
        Follows answer [Transfer.Event.listed (.ok listing)] events) ∧
    ∀ listing : List Part,
      (∀ p ∈ listing, p.OnGrid fileSize.toNat session.partSize.toNat) →
      ∀ (events : List (Transfer.Event ε)) (result : Except (TransferError ε) RemoteFile)
        (w : Uploader),
      History (u.resume session) (Transfer.Event.listed (.ok listing) :: events) (result, w) →
      (∀ event ∈ events, ¬event.BlamesPart) →
      let lost := u.lost fileSize.toNat session.partSize.toNat listing
      ((∃ offset, result = .error (.partUnavailable offset)) ↔ lost.Nonempty) ∧
      (∀ offset, result = .error (.partUnavailable offset) ↔ IsLeast lost offset) ∧
      (lost.Nonempty → calls events = []) := by
  obtain ⟨⟨k, hs⟩, hl⟩ := sound_and_level_of_attemptAll hfits hbefore hfull
  refine ⟨exists_history_resume_listed hl.active, ?_⟩
  intro listing hgrid events result w h hown lost
  have hfits' : session.Fits (u.adopt listing).fileSize := by
    rw [(hs.adopt listing).fileSize_eq]
    exact hfits
  have hreports := Finish.reports (l := hfits.layout reader) rfl hfits' hfits.2.symm
    ((history_resume_listed_iff hl.active).1 h) (hs.resuming_adopt hl hgrid) hown
  rw [show lost = (· * session.partSize.toNat) '' _ from hs.lost_eq hgrid]
  exact hreports.exact

/-- Of three parts the first is stored and the second is sent in vain. Then only the third is
listed: the first is lost, while the second is in the slot. -/
theorem first_of_three_unavailable :
    let session : Session := ⟨"three", 3, 1⟩
    let reader : Reader := .ofBytes [1, 2, 3]
    let third : Part := ⟨"c", 2, 1, ""⟩
    session.Fits 3 ∧ third.OnGrid 3 1 ∧
    ∃ (before events : List (Transfer.Event String)) (u w : Uploader),
      History (attemptAll session [.start] (.ofReader reader 3)) before
        ([.error (.session "reset")], u) ∧
      History (u.resume session) (Transfer.Event.listed (.ok [third]) :: events)
        (.error (.partUnavailable 0), w) ∧
      IsLeast (u.lost 3 1 [third]) 0 ∧ calls events = [] ∧ u.slot.offset? = some 1 := by
  intro session reader third
  let first : Part := ⟨"a", 0, 1, ""⟩
  have hfits : session.Fits 3 := by decide
  have hcheck := Geometry.check_eq_ok_iff.2 hfits
  obtain ⟨u, hstart, hu⟩ := exists_interrupted hfits [1] [2] [3] first (.session "reset") rfl
    (List.cons_ne_nil _ _) rfl (by decide)
  have hslot : u.slot = .holding ⟨1, [2]⟩ := hu.slot_eq
  have hbefore : History (attemptAll session [.start] (.ofReader reader 3)) _
      ([.error (.session "reset")], u) :=
    history_attemptAll_cons_iff.2
      ⟨_, _, _, u, [], rfl, rfl, hstart, history_attemptAll_nil_iff.2 ⟨rfl, rfl, rfl⟩⟩
  -- The part in the slot is ahead of the gap.
  let w : Uploader := u.adopt [third]
  have hcommitted : w.committed = [] := by
    simp [w, third, adopt, hslot, Slot.offset?, Slot.part?, reconcile, Reconciliation.byOffset,
      Reconciliation.firstOfEach, Reconciliation.run]
  have hslot' : w.slot = .holding ⟨1, [2]⟩ := slot_adopt_of_unlisted hslot (by decide)
  have hknown : w.known[0]? = none := by
    show (PartIndex.ofListing [third])[0]? = none
    cbv
  have hnext : w.next (ε := String) session.partSize.toNat = (.error (.partUnavailable 0), w) := by
    simp only [next, hslot', hcommitted, List.length_nil, Nat.zero_mul, remembered, hknown]
    rfl
  have hloop : Turns (ε := String) session 3 w [] _ := .failed (.failed hnext)
  have hresume : History (u.resume session) [Transfer.Event.listed (ε := String) (.ok [third])]
      (.error (.partUnavailable 0), w) := by
    refine (history_resume_listed_iff hu.active).2 (.stopped ?_ ?_)
    · exact (show w.fileSize = 3 from hu.fileSize_eq) ▸ hcheck
    · show Turns session (3 - w.committed.length) w [] _
      rw [hcommitted]
      exact hloop
  have hgrid : ∀ p ∈ [third], p.OnGrid (3 : UInt64).toNat session.partSize.toNat := by decide
  obtain ⟨-, hexact⟩ := part_unavailable_iff_lost hfits hbefore (by simp)
  obtain ⟨-, hleast, hcalls⟩ := hexact [third] hgrid [] _ w hresume (List.forall_mem_nil _)
  have hlost : IsLeast (u.lost 3 1 [third]) 0 := (hleast 0).1 rfl
  exact ⟨hfits, by decide, _, [], u, w, hbefore, hresume, hlost, hcalls ⟨0, hlost.1⟩,
    by rw [hslot]; rfl⟩

end Uploader

end ResumableUpload
