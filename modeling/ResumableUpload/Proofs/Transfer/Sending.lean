import ResumableUpload.Proofs.Transfer.Kept
import ResumableUpload.Proofs.Transfer.Sound

/-!
# What is sent, and how much is read

Whatever the session lists, answers or refuses, an upload sends nothing but parts of its file, each
with the bytes that the content has there, and reads no more of its stream than the file is long
(`sends_pieces_and_reads_no_further`). It makes no difference how often a part has been sent before,
or where its bytes come from.
-/

namespace ResumableUpload

/-- If this is a part that is sent, it is one of the layout's. -/
def Transfer.Event.SendsPieceOf {ε : Type} (l : Layout) : Transfer.Event ε → Prop
  | ⟨.sendPart bytes offset fileSize, _⟩ =>
    fileSize = l.fileSize ∧ ∃ i < l.count, offset = i * l.partSize ∧
      bytes = (l.piece i).chunk ∧ bytes.length = l.partLength i
  | _ => True

namespace Uploader

variable {ε : Type} {session : Session} {l : Layout} {k : Nat} {u v : Uploader}
  {events : List (Transfer.Event ε)}

/-- Sending the part that is ready sends a part of the layout. -/
theorem Ready.sends (h : Ready l k u v) (answer : Except (TransferError ε) Part) :
    (Transfer.Event.sent (l.piece u.committed.length).chunk (u.committed.length * l.partSize)
      l.fileSize answer).SendsPieceOf l :=
  have hnext : u.committed.length < l.count := h.sound.count_le
  ⟨rfl, u.committed.length, hnext, rfl, rfl, l.length_piece hnext h.sound.length_le⟩

/-- A step sends a part of the layout, or nothing. -/
theorem Step.sends {out : Except (TransferError ε) Unit × Uploader}
    (h : Step session l k u events out) : ∀ event ∈ events, event.SendsPieceOf l := by
  cases h with
  | recalled => exact List.forall_mem_singleton.2 trivial
  | reused => exact List.forall_mem_singleton.2 trivial
  | stored hready =>
    exact List.forall_mem_cons.2 ⟨hready.sends _, List.forall_mem_singleton.2 trivial⟩
  | held hready => exact List.forall_mem_singleton.2 (hready.sends _)
  | failed => exact nofun

/-- Soundness is kept, whatever an upload is told, and while it is kept only parts are sent. -/
theorem kept_sound (hsize : l.partSize = session.partSize.toNat)
    (hcount : l.count = session.totalParts.toNat) :
    Kept (ε := ε) session (fun _ => True) (·.SendsPieceOf l) fun u => ∃ k, u.Sound l k where
  turn := by
    rintro u events out ⟨k, hs⟩ hnext hturn -
    have hstep := hturn.step hs hsize (hcount ▸ hnext)
    obtain ⟨j, _, hs'⟩ := hstep.sound hs
    exact ⟨⟨j, hs'⟩, hstep.sends⟩
  commit _ _ _ := trivial
  adopt := fun ⟨k, hs⟩ _ => ⟨k, hs.adopt _⟩
  giveUp := fun ⟨k, hs⟩ => ⟨k, hs.giveUp⟩
  listed _ := trivial
  discarded _ := trivial
  reported _ := trivial

/-- What has been read beyond the parts that have been hashed belongs to the next part. -/
theorem Sound.unread_le (h : u.Sound l k) {s : Source} (hcontent : u.content = some s) :
    l.stream.unread ≤ s.reader.unread + l.size := by
  obtain ⟨hcut, hpoised⟩ := h.source s hcontent
  have hsupply := hcut.supply
  have hread := hpoised.position_add_pending_le
  have hend := l.reach_le_size (k := k + 1)
  omega

/-- Over any session that fits, and in any sequence of attempts and aborts, every part that is sent
is one of the file's, with the bytes that the content has at its offset, and none is empty. As long
as the upload has its stream, the bytes that are gone from it are no more than the file's; it has
none only after an abort. -/
theorem sends_pieces_and_reads_no_further {fileSize : UInt64} (hfits : session.Fits fileSize)
    {reader : Reader} {moves : List Move}
    (h : Program.History (play session moves (.ofReader reader fileSize)) events u) :
    (∀ bytes offset total answer, .sent bytes offset total answer ∈ events →
      total = fileSize ∧
      (∃ i < session.totalParts.toNat, offset = i * session.partSize.toNat) ∧
      bytes = reader.content.slice offset
        (min session.partSize.toNat (fileSize.toNat - offset)) ∧
      bytes.length = min session.partSize.toNat (fileSize.toNat - offset) ∧ bytes ≠ []) ∧
    (∀ source, u.content = some source → reader.unread ≤ source.reader.unread + fileSize.toNat) ∧
    (u.content = none → u.aborted = true) := by
  obtain ⟨⟨k, hs⟩, hsends⟩ := (kept_sound (l := hfits.layout reader) rfl hfits.2.symm).of_played
    (history_play_iff.1 h) ⟨0, sound_ofReader (hfits.layout reader)⟩ fun _ _ => trivial
  refine ⟨fun bytes offset total answer hsent => ?_, fun source hcontent => hs.unread_le hcontent,
    hs.released⟩
  obtain ⟨rfl, i, hi, rfl, hbytes, hlength⟩ := hsends _ hsent
  refine ⟨rfl, ⟨i, hfits.2 ▸ hi, rfl⟩, hbytes, hlength, ?_⟩
  rintro rfl
  exact absurd hlength (Nat.ne_of_lt (Layout.partLength_pos _ hi))

/-- The first part of three bytes is sent in vain, and the last byte is left in the stream. -/
theorem sends_two_of_three_bytes :
    let session : Session := ⟨"three", 2, 2⟩
    let reader : Reader := .ofBytes [1, 2, 3]
    session.Fits 3 ∧ ∃ (events : List (Transfer.Event String)) (u : Uploader) (source : Source),
      Program.History (play session [.attempt .start] (.ofReader reader 3)) events u ∧
      .sent [1, 2] 0 3 (.error (.session "reset")) ∈ events ∧
      [1, 2] = reader.content.slice 0 2 ∧
      u.content = some source ∧ reader.unread ≤ source.reader.unread + 3 := by
  intro session reader
  have hfits : session.Fits 3 := by decide
  have hnext : (ofReader reader 3).next (ε := String) session.partSize.toNat =
      (.ok (.atHand ⟨0, [1, 2]⟩),
        { ofReader reader 3 with content := some ⟨⟨[.data [3] none], [2]⟩, 2, [], false⟩ }) := by
    cbv
  have hturn := Turn.held (e := .session "reset") hnext rfl
  have hturns : Turns session 2 (ofReader reader 3) _ _ := .failed hturn
  have hplayed : Played session [.attempt .start] (ofReader reader 3) _ _ :=
    .cons (.attempt (.start rfl (.stopped (Geometry.check_eq_ok_iff.2 hfits) hturns))) (.nil _)
  have hhistory := history_play_iff.2 hplayed
  obtain ⟨hsent, hread, -⟩ := sends_pieces_and_reads_no_further hfits hhistory
  have hmem := List.mem_singleton_self (Transfer.Event.sent [1, 2] 0 3 (.error (.session "reset")))
  exact ⟨hfits, _, _, _, hhistory, hmem, (hsent _ _ _ _ hmem).2.2.1, rfl, hread _ rfl⟩

end Uploader

end ResumableUpload
