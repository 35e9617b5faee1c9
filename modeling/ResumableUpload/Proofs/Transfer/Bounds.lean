import Mathlib.Order.Bounds.Basic
import ResumableUpload.Client.RemoteSession
import ResumableUpload.Proofs.Transfer.Chunks
import ResumableUpload.Proofs.Transfer.Interrupted
import ResumableUpload.Proofs.Transfer.Sending

/-!
# No number exceeds the file

A geometry is accepted if the parts are not empty and their number is the least that holds the file
(`Geometry.check_eq_ok_iff_isLeast`). All parts together may reach beyond the file, and beyond what
64 bits can say. But the loop only computes the offsets of parts that begin within the file, a part
ends within the file, and the stream stands within it, whatever the session lists or answers. So
every number that an attempt computes with fits where the size of the file does
(`stays_within_file`).

Offsets come from the number of records that count, and that can be anything after a hostile
listing. It is the guard of the loop that bounds it.
-/

namespace ResumableUpload

/-! ## Accepted geometry -/

/-- The number of parts is the least that holds the file. -/
theorem Geometry.isLeast_partCount (fileSize : Nat) {partSize : Nat} (hpos : 0 < partSize) :
    IsLeast {n : Nat | fileSize ≤ n * partSize} (partCount fileSize partSize) := by
  have hcount : ∀ n, partCount fileSize partSize ≤ n ↔ fileSize ≤ n * partSize := by
    intro n
    rw [partCount, ← Nat.lt_add_one_iff, Nat.div_lt_iff_lt_mul hpos, Nat.succ_mul]
    omega
  exact ⟨(hcount _).1 (Nat.le_refl _), fun n hn => (hcount n).2 hn⟩

/-- A geometry is accepted if and only if no part is empty and the parts are the fewest that hold
the file. -/
theorem Geometry.check_eq_ok_iff_isLeast (fileSize partSize totalParts : UInt64) :
    Geometry.check fileSize partSize totalParts = .ok () ↔ 0 < partSize.toNat ∧
      IsLeast {n : Nat | fileSize.toNat ≤ n * partSize.toNat} totalParts.toNat := by
  have hfits : Geometry.check fileSize partSize totalParts = .ok () ↔
      Session.Fits ⟨"", totalParts, partSize⟩ fileSize :=
    @Geometry.check_eq_ok_iff ⟨"", totalParts, partSize⟩ fileSize
  rw [hfits, Session.Fits]
  refine and_congr_right fun hpos => ?_
  have hleast := Geometry.isLeast_partCount fileSize.toNat hpos
  exact ⟨fun heq => heq ▸ hleast, fun h => h.unique hleast⟩

/-- A product of machine words below a machine word does not overflow. -/
theorem toNat_toUInt64_mul {n : Nat} {word bound : UInt64} (h : n * word.toNat < bound.toNat) :
    (n.toUInt64 * word).toNat = n * word.toNat := by
  rw [UInt64.toNat_mul, UInt64.toNat_ofNat', Nat.mod_mul_mod]
  exact Nat.mod_eq_of_lt (Nat.lt_trans h bound.toNat_lt)

/-! ## What reads ask for -/

/-- The reads that lead from one state of a stream to another are on its record. -/
theorem Reader.Pulls.requests_eq {r r' : Reader} {pulls : List Pull} (h : r.Pulls pulls r') :
    r'.requests = (pulls.map Pull.room).reverse ++ r.requests := by
  induction h with
  | nil => rfl
  | cons hread _ ih =>
    cases hread
    rw [ih, List.map_cons, List.reverse_cons, List.append_assoc]
    rfl

/-- No read is offered no room, or more than is missing. -/
theorem OfferMissing.room_le {missing : Nat} {pulls : List Pull} (h : OfferMissing missing pulls) :
    ∀ pull ∈ pulls, 0 < pull.room ∧ pull.room ≤ missing := by
  induction pulls generalizing missing with
  | nil => exact nofun
  | cons pull pulls ih =>
    obtain ⟨hpos, hroom, hrest⟩ := h
    refine List.forall_mem_cons.2 ⟨⟨hroom ▸ hpos, Nat.le_of_eq hroom⟩, fun later hlater => ?_⟩
    have := ih hrest later hlater
    exact ⟨this.1, Nat.le_trans this.2 (Nat.sub_le _ _)⟩

/-- Since `stream`, each read was offered room for at least one byte and at most `most`. -/
def Reader.OffersSince (stream : Reader) (most : Nat) (r : Reader) : Prop :=
  ∃ offered, r.requests = offered ++ stream.requests ∧ ∀ n ∈ offered, 1 ≤ n ∧ n ≤ most

/-- A call for a chunk offers its reads no more than the chunk takes. -/
theorem Source.offersSince_of_nextChunk {stream : Reader} {most length : Nat} {s t : Source}
    {result : Except String Bytes} (h : stream.OffersSince most s.reader) (hlength : length ≤ most)
    (hchunk : s.nextChunk length = (result, t)) : stream.OffersSince most t.reader := by
  have hreader : t.reader = (s.fill length).2.reader := by
    rw [nextChunk] at hchunk
    split at hchunk
    next hfill => cases hchunk; rw [hfill]
    next hfill => cases hchunk; rw [hfill]
  obtain ⟨offered, hoffered, hbounds⟩ := h
  obtain ⟨pulls, hpulls, hmissing, -⟩ := s.fill_pulls length
  refine ⟨(pulls.map Pull.room).reverse ++ offered, ?_, ?_⟩
  · rw [hreader, hpulls.requests_eq, hoffered, List.append_assoc]
  · intro n hn
    rcases List.mem_append.1 hn with hn | hn
    · obtain ⟨pull, hpull, rfl⟩ := List.mem_map.1 (List.mem_reverse.1 hn)
      have hroom := hmissing.room_le pull hpull
      omega
    · exact hbounds n hn

namespace Uploader

open Program (History)

variable {ε : Type} {session : Session} {stream : Reader} {fileSize : UInt64} {l : Layout} {k : Nat}
  {u v w : Uploader} {events : List (Transfer.Event ε)}

/-- No read of the content has asked for nothing, or for more than a part. -/
def Offers (stream : Reader) (partSize : Nat) (u : Uploader) : Prop :=
  ∀ s, u.content = some s → stream.OffersSince partSize s.reader

/-- Nothing that an upload holds reaches beyond its file, and no read asks for more than a part. -/
structure Within (fileSize partSize : Nat) (stream : Reader) (u : Uploader) : Prop where
  slot : ∀ part, u.slot = .holding part → part.stop ≤ fileSize
  through : u.digestedThrough ≤ fileSize
  position : ∀ s, u.content = some s → s.position ≤ fileSize
  offers : u.Offers stream partSize

theorem offers_ofReader {partSize : Nat} : (ofReader stream fileSize).Offers stream partSize := by
  rintro _ ⟨⟩
  exact ⟨[], rfl, nofun⟩

/-- The state after some turns of an attempt that begins in the state `u`, as it is or with a
listing taken over. -/
def Underway (ε : Type) (session : Session) (u v : Uploader) : Prop :=
  ∃ (begun : Uploader) (count : Nat) (events : List (Transfer.Event ε)),
    (begun = u ∨ ∃ listing, begun = u.adopt listing) ∧
      History (accountFor session count begun) events (.ok (), v)

/-! ## Turns -/

/-- So do any number of turns. -/
theorem Turns.length_committed {count : Nat} (h : Turns session count u events (.ok (), w)) :
    w.committed.length = u.committed.length + count := by
  generalize hout : (Except.ok (), w) = out at h
  induction h with
  | done => cases hout; rfl
  | failed => cases hout
  | more hturn _ ih =>
    have := hturn.length_committed
    have := ih hout
    omega

/-- Looking for the next part reads the part at most. -/
theorem Sought.offers {partSize : Nat} {out : Except (TransferError ε) Next × Uploader}
    (h : Sought partSize u out) (hoffers : u.Offers stream partSize) :
    out.2.Offers stream partSize := by
  have hread : ∀ {s t : Source} {result : Except String Bytes} {offset : Nat},
      u.content = some s →
      s.nextChunk (Geometry.partLength u.fileSize.toNat partSize offset) = (result, t) →
      { u with content := some t }.Offers stream partSize := by
    rintro s t result offset hcontent hchunk _ ⟨⟩
    exact Source.offersSince_of_nextChunk (hoffers s hcontent) (Nat.min_le_left _ _) hchunk
  cases h with
  | waiting => exact hoffers
  | recorded => exact hoffers
  | missing => exact hoffers
  | read _ _ hcontent _ hchunk => exact hread hcontent hchunk
  | interrupted _ _ hcontent _ hchunk => exact hread hcontent hchunk
  | torn _ _ hcontent _ hchunk => exact hread hcontent hchunk
  | stranded => exact hoffers
  | released => exact hoffers

/-- Hashing does not read. -/
theorem content_hash (part : InFlight) : (u.hash part).content = u.content := by
  rw [hash]
  split <;> rfl

/-- A turn of the loop reads a part at most. -/
theorem Turn.offers {out : Except (TransferError ε) Unit × Uploader}
    (h : Turn session u events out) (hoffers : u.Offers stream session.partSize.toNat) :
    out.2.Offers stream session.partSize.toNat := by
  have hsought := (next_sought (ε := ε) u session.partSize.toNat).offers hoffers
  have hhashed : ∀ {part : InFlight} {w : Uploader},
      u.next (ε := ε) session.partSize.toNat = (.ok (.atHand part), w) →
      (w.hash part).Offers stream session.partSize.toNat := by
    intro part w hnext s hcontent
    rw [content_hash] at hcontent
    rw [hnext] at hsought
    exact hsought s hcontent
  cases h with
  | failed hnext =>
    rw [hnext] at hsought
    exact hsought
  | recalled hnext =>
    rw [hnext] at hsought
    exact hsought
  | reused hnext => exact hhashed hnext
  | stored hnext => exact hhashed hnext
  | held hnext => exact hhashed hnext

/-! ## Every state -/

/-- A sound upload holds nothing beyond its file. -/
theorem Sound.within (h : u.Sound l k) (hoffers : u.Offers l.stream l.partSize) :
    u.Within l.size l.partSize l.stream where
  slot := by
    intro part hslot
    obtain ⟨i, rfl, rfl⟩ := h.slot_eq part hslot
    rw [l.stop_piece h.count_le h.length_le]
    exact l.reach_le_size
  through := h.through_eq ▸ l.reach_le_size
  position := fun s hcontent =>
    calc s.position ≤ s.position + s.pending.length := Nat.le_add_right _ _
      _ ≤ l.reach (k + 1) := (h.source s hcontent).2.position_add_pending_le
      _ ≤ l.size := l.reach_le_size
  offers := hoffers

/-- A part that is found at hand ends within the file. -/
theorem Sound.stop_le_of_atHand (h : v.Sound l k) (hnext : v.committed.length < l.count)
    {part : InFlight} (hfound : v.next (ε := ε) l.partSize = (.ok (.atHand part), w)) :
    part.stop ≤ l.size := by
  have hdrawn := next_drawn (ε := ε) h hnext
  rw [hfound] at hdrawn
  cases hdrawn with
  | atHand hready =>
    rw [l.stop_piece hnext hready.sound.length_le]
    exact l.reach_le_size

/-- Soundness and the bounds of reads are kept, whatever an upload is told. -/
theorem kept_sound_and_offers (hsize : l.partSize = session.partSize.toNat)
    (hcount : l.count = session.totalParts.toNat) :
    Kept (ε := ε) session (fun _ => True) (·.SendsPieceOf l) fun u =>
      (∃ k, u.Sound l k) ∧ u.Offers l.stream l.partSize :=
  have hkept := kept_sound (ε := ε) hsize hcount
  { hkept with
    turn := fun ⟨hsound, hoffers⟩ hnext hturn htold =>
      have ⟨hsound', hasked⟩ := hkept.turn hsound hnext hturn htold
      ⟨⟨hsound', hsize ▸ hturn.offers (hsize ▸ hoffers)⟩, hasked⟩
    commit := fun answer hinv hall => hkept.commit answer hinv.1 hall
    adopt := fun ⟨hsound, hoffers⟩ htold => ⟨hkept.adopt hsound htold, hoffers⟩
    giveUp := fun ⟨hsound, _⟩ => ⟨hkept.giveUp hsound, nofun⟩ }

/-- A part that is sent ends within the file, and so does the range that its request names. -/
theorem range_of_sendsPieceOf {bytes : Bytes} {offset : Nat} {total : UInt64}
    {answer : Except (TransferError ε) Part}
    (h : (Transfer.Event.sent bytes offset total answer).SendsPieceOf l) :
    ∃ last < l.size, offset + bytes.length = last + 1 ∧
      RemoteSession.contentRange offset bytes.length total = "bytes " ++ toString offset ++ "-" ++
        toString last ++ "/" ++ toString l.fileSize := by
  obtain ⟨rfl, i, hi, rfl, -, hlength⟩ := h
  have hend := l.reach_succ hi
  have hwithin := l.reach_le_size (k := i + 1)
  have hpos := l.partLength_pos hi
  exact ⟨i * l.partSize + bytes.length - 1, by omega, by omega, rfl⟩

/-- A geometry is accepted exactly if no part is empty and the parts are the fewest that hold the
file. Over a session with an accepted geometry, and in every state that attempts and aborts lead to,
whatever the session lists or answers: the part in the slot ends within the file, the stream stands
within it, and every read has asked for at least one byte and at most a part. Every part that is
sent ends within the file, and so does the range that its request names. When the loop of an attempt
has a turn to make, it computes the offset of a part that begins within the file, without an
overflow, the part that it reads is not empty and no longer than `partSize`, and if it has a part at
hand, that ends within the file. -/
theorem stays_within_file :
    (∀ fileSize partSize totalParts : UInt64,
      Geometry.check fileSize partSize totalParts = .ok () ↔ 0 < partSize.toNat ∧
        IsLeast {n : Nat | fileSize.toNat ≤ n * partSize.toNat} totalParts.toNat) ∧
    ∀ (session : Session) (fileSize : UInt64) (reader : Reader) (moves : List Move)
      (events : List (Transfer.Event ε)) (u : Uploader),
      Geometry.check fileSize session.partSize session.totalParts = .ok () →
      History (play session moves (.ofReader reader fileSize)) events u →
      u.Within fileSize.toNat session.partSize.toNat reader ∧
      (∀ bytes offset total answer, .sent bytes offset total answer ∈ events →
        ∃ last < fileSize.toNat, offset + bytes.length = last + 1 ∧
          RemoteSession.contentRange offset bytes.length total = "bytes " ++ toString offset ++
            "-" ++ toString last ++ "/" ++ toString fileSize) ∧
      ∀ v, Underway ε session u v → v.committed.length < session.totalParts.toNat →
        let offset := v.committed.length * session.partSize.toNat
        let length := Geometry.partLength fileSize.toNat session.partSize.toNat offset
        v.Within fileSize.toNat session.partSize.toNat reader ∧
        offset < fileSize.toNat ∧
        (v.committed.length.toUInt64 * session.partSize).toNat = offset ∧
        (1 ≤ length ∧ length ≤ session.partSize.toNat) ∧
        ∀ part w, v.next (ε := ε) session.partSize.toNat = (.ok (.atHand part), w) →
          part.stop ≤ fileSize.toNat := by
  refine ⟨Geometry.check_eq_ok_iff_isLeast, ?_⟩
  intro session fileSize reader moves events u hcheck hplayed
  have hfits := Geometry.check_eq_ok_iff.1 hcheck
  let l : Layout := hfits.layout reader
  have hcount : l.count = session.totalParts.toNat := hfits.2.symm
  have hkept := kept_sound_and_offers (ε := ε) (l := l) rfl hcount
  obtain ⟨⟨⟨k, hs⟩, hoffers⟩, hsends⟩ := hkept.of_played (history_play_iff.1 hplayed)
    ⟨⟨0, sound_ofReader l⟩, offers_ofReader⟩ fun _ _ => trivial
  refine ⟨hs.within hoffers, fun bytes offset total answer hsent =>
    range_of_sendsPieceOf (hsends _ hsent), fun v hunderway hmissing => ?_⟩
  obtain ⟨begun, count, between, hbegun, hloop⟩ := hunderway
  have hturns := history_accountFor_iff.1 hloop
  have hbegin : (∃ k, begun.Sound l k) ∧ begun.Offers l.stream l.partSize := by
    rcases hbegun with rfl | ⟨listing, rfl⟩
    · exact ⟨⟨k, hs⟩, hoffers⟩
    · exact hkept.adopt ⟨⟨k, hs⟩, hoffers⟩ trivial
  have hlength := hturns.length_committed
  obtain ⟨⟨⟨⟨j, hs'⟩, hoffers'⟩, -⟩, -⟩ :=
    hkept.of_turns hturns (by omega) hbegin fun _ _ => trivial
  have hnext : v.committed.length < l.count := hcount ▸ hmissing
  have hinside := l.lt_count_iff.1 hnext
  exact ⟨hs'.within hoffers', hinside, toNat_toUInt64_mul hinside,
    ⟨l.partLength_pos hnext, Nat.min_le_left _ _⟩, fun part w hfound =>
      hs'.stop_le_of_atHand hnext hfound⟩

/-- A session for the greatest file, in parts of two bytes. All of them together reach beyond the
machine's range. -/
def vast : Session := ⟨"vast", 0x8000000000000000, 2⟩

/-- A record of the whole file at its beginning, one of no byte at the second part, and one where no
part begins. -/
def falseListing : List Part :=
  [⟨"end", 0xFFFFFFFFFFFFFFFF, 0, ""⟩, ⟨"none", 2, 0, ""⟩, ⟨"all", 0, 0xFFFFFFFFFFFFFFFF, ""⟩]

/-- With the second part of the greatest file in flight, a resumption that is told this listing
counts two of its records, reads the third part, and has it in flight when sending it fails. -/
theorem turns_of_falseListing {front : Bytes} {record : Part} (hfront : front.length = 2)
    (hu : u.Interrupted vast 0xFFFFFFFFFFFFFFFF front [3, 4] [5, 6] record) :
    ∃ (events : List (Transfer.Event String)) (w : Uploader),
      Turns vast (vast.totalParts.toNat - (u.adopt falseListing).committed.length)
        (u.adopt falseListing) events (.error (.session "reset"), w) ∧
      .sent [5, 6] 4 0xFFFFFFFFFFFFFFFF (.error (.session "reset")) ∈ events ∧
      w.slot = .holding ⟨4, [5, 6]⟩ ∧ w.committed.length = 2 := by
  have hslot : u.slot = .holding ⟨2, [3, 4]⟩ := hu.slot_eq
  have hthrough : u.digestedThrough = 4 := by rw [hu.through_eq, hfront]; rfl
  let v : Uploader := u.adopt falseListing
  have hcommitted : v.committed = [⟨"all", 0, 0xFFFFFFFFFFFFFFFF, ""⟩] := by
    simp [v, falseListing, adopt, hslot, Slot.offset?, Slot.part?, reconcile,
      Reconciliation.byOffset, List.mergeSort, Reconciliation.firstOfEach, Reconciliation.run,
      Part.stop]
  have hidle : v.slot = .idle := by
    simp [v, falseListing, adopt, hslot, Slot.offset?, Slot.part?, reconcile]
  have hknown : v.known[v.committed.length * vast.partSize.toNat]? = some ⟨"none", 2, 0, ""⟩ := by
    rw [hcommitted]
    show (PartIndex.ofListing falseListing)[2]? = _
    cbv
  have hpassed : v.committed.length * vast.partSize.toNat < v.digestedThrough := by
    rw [hcommitted]
    exact Nat.lt_of_lt_of_eq (by decide) hthrough.symm
  have hrecalled := Turn.recalled (ε := String) (next_of_known hidle hpassed hknown)
  let counted : Uploader := v.account ⟨"none", 2, 0, ""⟩
  have hlength : counted.committed.length = 2 := by
    rw [show counted.committed = v.committed ++ _ from rfl, hcommitted]
    rfl
  have hoffset : counted.committed.length * vast.partSize.toNat = 4 := by rw [hlength]; rfl
  have hroom : 2 = Geometry.partLength counted.fileSize.toNat vast.partSize.toNat 4 := by
    rw [show counted.fileSize = _ from hu.fileSize_eq]
    decide
  have hcontent : counted.content =
      some ⟨⟨[.data ([5, 6] ++ []) none], [2, front.length]⟩, 4, [], false⟩ := by
    rw [show counted.content = _ from hu.content_eq, hfront]
    rfl
  let read : Uploader :=
    { counted with content := some ⟨⟨[.data [] none], [2, 2, front.length]⟩, 6, [], false⟩ }
  have hread : counted.next (ε := String) vast.partSize.toNat =
      (.ok (.atHand ⟨4, [5, 6]⟩), read) :=
    next_of_data hidle hoffset (Nat.le_of_eq hthrough) rfl (List.cons_ne_nil _ _) hroom hcontent
  have hunknown : (read.hash ⟨4, [5, 6]⟩).known[4]? = none := by
    rw [known_hash]
    show ((PartIndex.ofListing falseListing).note ⟨"none", 2, 0, ""⟩)[4]? = none
    cbv
  have hheld := Turn.held (e := .session "reset") hread hunknown
  have hsent : (read.hash ⟨4, [5, 6]⟩).fileSize = 0xFFFFFFFFFFFFFFFF := by
    rw [hash]
    split <;> exact hu.fileSize_eq
  have hleft : vast.totalParts.toNat - v.committed.length = 0x7FFFFFFFFFFFFFFD + 1 + 1 := by
    rw [hcommitted]
    rfl
  rw [hsent] at hheld
  have hturns : Turns vast (0x7FFFFFFFFFFFFFFD + 1 + 1) v _ _ := .more hrecalled (.failed hheld)
  refine ⟨_, _, hleft ▸ hturns, ?_, rfl, ?_⟩
  · exact List.mem_append_right _ (List.mem_singleton_self _)
  · rw [committed_hash]
    exact hlength

/-- The greatest file in parts of two bytes. The first part is stored, and sending the second fails.
After a listing with false records, the third part is in flight. -/
theorem greatest_file_after_false_listing :
    let fileSize : UInt64 := 0xFFFFFFFFFFFFFFFF
    let reader : Reader := .ofBytes [1, 2, 3, 4, 5, 6]
    Geometry.check fileSize vast.partSize vast.totalParts = .ok () ∧
      vast.totalParts * vast.partSize = 0 ∧
      ∃ (events : List (Transfer.Event String)) (u : Uploader),
        History (play vast [.attempt .start, .attempt .resume] (.ofReader reader fileSize))
          events u ∧
        .sent [1, 2] 0 fileSize (.ok ⟨"first", 0, 2, ""⟩) ∈ events ∧
        .listed (.ok falseListing) ∈ events ∧
        .sent [5, 6] 4 fileSize (.error (.session "reset")) ∈ events ∧
        u.slot = .holding ⟨4, [5, 6]⟩ ∧ Underway String vast u u ∧
        u.committed.length < vast.totalParts.toNat ∧
        InFlight.stop ⟨4, [5, 6]⟩ ≤ fileSize.toNat ∧ (∃ last < fileSize.toNat, 4 + 2 = last + 1) ∧
        (u.committed.length.toUInt64 * vast.partSize).toNat = 4 := by
  intro fileSize reader
  have hcheck : Geometry.check fileSize vast.partSize vast.totalParts = .ok () := by decide
  let first : Part := ⟨"first", 0, 2, ""⟩
  obtain ⟨v, hstart, hv⟩ := exists_interrupted (Geometry.check_eq_ok_iff.1 hcheck) [1, 2] [3, 4]
    [5, 6] first (.session "reset") rfl (List.cons_ne_nil _ _) (by decide) (by decide)
  obtain ⟨events, u, hsecond, hsent, hholding, hlength⟩ := turns_of_falseListing rfl hv
  have hplayed : Played vast [.attempt .start, .attempt .resume] (ofReader reader fileSize) _ u :=
    .cons (.attempt hstart) (.cons (.attempt (.resume hv.active
      (.stopped (hv.fileSize_eq.symm ▸ hcheck) hsecond))) (.nil u))
  have hhistory := history_play_iff.2 hplayed
  obtain ⟨-, hall⟩ := stays_within_file (ε := String)
  obtain ⟨hwithin, hranges, hloop⟩ := hall vast fileSize reader _ _ u hcheck hhistory
  have hunderway : Underway String vast u u := ⟨u, 0, [], .inl rfl, .done _⟩
  have hmissing : u.committed.length < vast.totalParts.toNat := by
    rw [hlength]
    decide
  obtain ⟨-, -, hproduct, -⟩ := hloop u hunderway hmissing
  have hsent' := List.mem_append_right [.sent [1, 2] 0 fileSize (.ok first), v.accounted vast,
    .sent [3, 4] 2 fileSize (.error (.session "reset"))] (List.mem_append_left []
      (List.mem_cons_of_mem (.listed (.ok falseListing)) hsent))
  obtain ⟨last, hlast, hend, -⟩ := hranges _ _ _ _ hsent'
  refine ⟨hcheck, rfl, _, u, hhistory, List.mem_append_left _ List.mem_cons_self,
    List.mem_append_right _ (List.mem_append_left _ List.mem_cons_self), hsent', hholding,
    hunderway, hmissing, hwithin.slot _ hholding, ⟨last, hlast, hend⟩, ?_⟩
  rw [hproduct, hlength]
  rfl

end Uploader

end ResumableUpload
