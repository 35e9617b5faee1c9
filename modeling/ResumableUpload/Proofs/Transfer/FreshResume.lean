import ResumableUpload.Proofs.Transfer.Honest
import ResumableUpload.Proofs.Transfer.Rounds

/-!
# Resuming from another process

An upload that has not begun, and resumes, has nothing in its slot and has read nothing. So it walks
its stream from the first byte, whatever is listed: every part is read and hashed, and a listed
record only takes the place of sending the part (`resumes_from_another_process`). That is so for
every set of listed offsets, with holes, without the first parts, or with all of them. If nothing is
listed, the resumption is a start.

The invariant is `Walking`: as many parts are hashed as have been counted, and of the offsets that
are still ahead exactly those are known that are listed.
-/

namespace ResumableUpload

variable {ε : Type}

/-- If this is the record of a part that has been sent, it names the part's offset. -/
def Transfer.Event.InPlace : Transfer.Event ε → Prop
  | ⟨.sendPart _ offset _, .ok p⟩ => p.offset.toNat = offset
  | _ => True

/-- What is sent for the records that are not listed: the bytes of their parts. -/
def sendings (content : Bytes) (fileSize : UInt64) (partSize : Nat) (listing records : List Part) :
    List (Transfer.Event ε) :=
  (records.filter fun p => p.offset.toNat ∉ listing.map (·.offset.toNat)).map fun p =>
    .sent (content.slice p.offset.toNat
      (Geometry.partLength fileSize.toNat partSize p.offset.toNat)) p.offset.toNat fileSize (.ok p)

section

variable {content : Bytes} {fileSize : UInt64} {partSize : Nat} {listing : List Part} {p : Part}

theorem sendings_append (before after : List Part) :
    sendings (ε := ε) content fileSize partSize listing (before ++ after) =
      sendings content fileSize partSize listing before ++
        sendings content fileSize partSize listing after := by
  simp only [sendings, List.filter_append, List.map_append]

/-- Nothing is sent for a record that is listed. -/
theorem sendings_of_listed (h : p.offset.toNat ∈ listing.map (·.offset.toNat)) :
    sendings (ε := ε) content fileSize partSize listing [p] = [] := by
  rw [sendings, List.filter_cons_of_neg (by simpa only [decide_eq_true_eq, not_not] using h)]
  rfl

/-- The part is sent for a record that is not listed. -/
theorem sendings_of_unlisted (h : p.offset.toNat ∉ listing.map (·.offset.toNat)) :
    sendings (ε := ε) content fileSize partSize listing [p] =
      [.sent (content.slice p.offset.toNat
        (Geometry.partLength fileSize.toNat partSize p.offset.toNat)) p.offset.toNat fileSize
        (.ok p)] := by
  rw [sendings, List.filter_cons_of_pos (by simpa only [decide_eq_true_eq] using h)]
  rfl

end

namespace Uploader

open Program (History Follows)

variable {session : Session} {l : Layout} {k : Nat} {listing : List Part} {u v w : Uploader}
  {events : List (Transfer.Event ε)}

/-- An upload that counts the parts as it reads them, with a listing to look them up. -/
structure Walking (l : Layout) (listing : List Part) (u : Uploader) : Prop where
  sound : u.Sound l u.committed.length
  idle : u.slot = .idle
  active : u.aborted = false
  quiet : u.failures = 0
  /-- What the session has answered with is behind. -/
  known_eq : ∀ i, u.committed.length ≤ i →
    u.known[i * l.partSize]? = (PartIndex.ofListing listing)[i * l.partSize]?

/-- Walking on from one state to another has counted these records: at the next offsets, those that
are listed where there are any, and nothing has been asked for but to take the parts of the
others. -/
structure Walked (l : Layout) (listing : List Part) (u : Uploader)
    (events : List (Transfer.Event ε)) (counted : List Part) (w : Uploader) : Prop where
  walking : w.Walking l listing
  committed_eq : w.committed = u.committed ++ counted
  offsets_eq : counted.map (·.offset.toNat) =
    (List.range' u.committed.length counted.length).map (· * l.partSize)
  mem_listing : ∀ p ∈ counted, p.offset.toNat ∈ listing.map (·.offset.toNat) → p ∈ listing
  calls_eq : calls events = sendings l.content l.fileSize l.partSize listing counted

/-- An upload that has not begun walks as soon as it has taken over a listing. -/
theorem walking_adopt (l : Layout) (hquiet : l.stream.failures = 0) (listing : List Part) :
    ((ofReader l.stream l.fileSize).adopt listing).Walking l listing where
  sound := (sound_ofReader l).adopt listing
  idle := rfl
  active := rfl
  quiet := hquiet
  known_eq _ _ := rfl

namespace Walking

/-- The stream stands behind the parts that have been counted. -/
theorem position_eq (hw : u.Walking l listing) (hlong : l.size ≤ l.content.length) :
    ∃ s, u.content = some s ∧ s.position = l.reach u.committed.length := by
  cases hcontent : u.content with
  | none =>
    have haborted := hw.sound.released hcontent
    rw [hw.active] at haborted
    cases haborted
  | some s =>
    refine ⟨s, rfl, ?_⟩
    cases (hw.sound.source s hcontent).2 with
    | before hposition => exact hposition
    | inside _ hhigh hend =>
      have := l.reach_le_size (k := u.committed.length + 1)
      omega

/-- The next part is found. -/
theorem not_drawn_error (hw : u.Walking l listing) (hnext : u.committed.length < l.count)
    (hlong : l.size ≤ l.content.length) {e : TransferError ε} :
    ¬Drawn l u.committed.length u (.error e, w) := by
  intro h
  cases h with
  | missing hbehind =>
    rw [Behind, hw.idle] at hbehind
    exact Nat.lt_irrefl _ hbehind
  | interrupted _ _ _ hfailures =>
    rw [hw.quiet] at hfailures
    cases hfailures
  | torn _ _ hshort =>
    have := l.reach_le_size (k := u.committed.length + 1)
    omega
  | stranded _ _ hcontent hposition =>
    obtain ⟨s, hcontent', hposition'⟩ := hw.position_eq hlong
    cases hcontent.symm.trans hcontent'
    exact hposition (hposition'.trans (l.reach_of_lt hnext))
  | released _ hcontent =>
    obtain ⟨s, hcontent', -⟩ := hw.position_eq hlong
    rw [hcontent] at hcontent'
    cases hcontent'

/-- Counting the part that is ready goes on with the walk. -/
theorem account_ready (hw : u.Walking l listing) (hready : Ready l u.committed.length u v)
    {record : Part} (hoffset : record.offset.toNat = u.committed.length * l.partSize) :
    (v.account record).Walking l listing where
  sound := by
    rw [length_committed_account, hready.committed_eq]
    exact hready.sound.account record
  idle := hready.slot_eq
  active := hready.aborted_eq.trans hw.active
  quiet := Nat.le_zero.1 (hw.quiet ▸ hready.failures_le)
  known_eq := by
    intro i hi
    rw [length_committed_account, hready.committed_eq] at hi
    have hother : record.offset.toNat ≠ i * l.partSize := fun heq => by
      have := l.mul_inj (hoffset.symm.trans heq)
      omega
    rw [← hw.known_eq i (by omega)]
    simp only [account, PartIndex.getElem?_note, if_neg hother, hready.known_eq]

/-- What counting the part that is ready has come to. -/
theorem walked_ready (hw : u.Walking l listing) (hready : Ready l u.committed.length u v)
    {record : Part} (hoffset : record.offset.toNat = u.committed.length * l.partSize)
    (hmem : record.offset.toNat ∈ listing.map (·.offset.toNat) → record ∈ listing)
    (hcalls : calls events = sendings l.content l.fileSize l.partSize listing [record]) :
    Walked l listing u events [record] (v.account record) where
  walking := hw.account_ready hready hoffset
  committed_eq := by
    rw [← hready.committed_eq]
    rfl
  offsets_eq := congrArg (· :: []) hoffset
  mem_listing := List.forall_mem_singleton.2 hmem
  calls_eq := hcalls

/-- Without a fault a turn reads, hashes and counts the next part, and sends it if it is not
listed. -/
theorem turn (hw : u.Walking l listing) (hsize : l.partSize = session.partSize.toNat)
    (hnext : u.committed.length < l.count) (hlong : l.size ≤ l.content.length)
    {out : Except (TransferError ε) Unit × Uploader} (h : Turn session u events out)
    (hfaults : faults events = 0) (hplace : ∀ event ∈ events, event.InPlace) :
    ∃ record v, out = (.ok (), v) ∧ Walked l listing u events [record] v := by
  cases h.step hw.sound hsize hnext with
  | recalled hbehind =>
    rw [Behind, hw.idle] at hbehind
    exact absurd hbehind (Nat.lt_irrefl _)
  | @reused record v hready hknown =>
    rw [hw.known_eq _ (Nat.le_refl _)] at hknown
    obtain ⟨hmem, hoffset⟩ := PartIndex.mem_of_getElem?_ofListing hknown
    refine ⟨record, _, rfl, hw.walked_ready hready hoffset (fun _ => hmem) ?_⟩
    rw [sendings_of_listed (List.mem_map_of_mem hmem)]
    rfl
  | @stored record v hready hknown =>
    have hoffset : record.offset.toNat = u.committed.length * l.partSize :=
      hplace _ List.mem_cons_self
    rw [hw.known_eq _ (Nat.le_refl _)] at hknown
    have hunlisted : record.offset.toNat ∉ listing.map (·.offset.toNat) := by
      intro hmem
      obtain ⟨p, hp, hsame⟩ := List.mem_map.1 hmem
      have hsome := PartIndex.isSome_getElem?_ofListing hp
      rw [hsame, hoffset, hknown] at hsome
      cases hsome
    refine ⟨record, _, rfl,
      hw.walked_ready hready hoffset (fun hlisted => absurd hlisted hunlisted) ?_⟩
    rw [sendings_of_unlisted hunlisted, hoffset]
    rfl
  | held => cases hfaults
  | failed hdrawn => exact absurd hdrawn (hw.not_drawn_error hnext hlong)

end Walking

/-- Walking on, and then further on. -/
theorem Walked.trans {before after : List (Transfer.Event ε)} {first rest : List Part}
    (h : Walked l listing u before first v) (h' : Walked l listing v after rest w) :
    Walked l listing u (before ++ after) (first ++ rest) w where
  walking := h'.walking
  committed_eq := by rw [h'.committed_eq, h.committed_eq, List.append_assoc]
  offsets_eq := by
    rw [List.map_append, h.offsets_eq, h'.offsets_eq, h.committed_eq, List.length_append,
      List.length_append, ← List.map_append, List.range'_append_1]
  mem_listing := List.forall_mem_append.2 ⟨h.mem_listing, h'.mem_listing⟩
  calls_eq := by rw [calls_append, sendings_append, h.calls_eq, h'.calls_eq]

/-- Without a fault the loop walks on over as many parts as it takes turns. -/
theorem Walking.turns (hsize : l.partSize = session.partSize.toNat)
    (hlong : l.size ≤ l.content.length) {count : Nat}
    {out : Except (TransferError ε) Unit × Uploader} (h : Turns session count u events out)
    (hw : u.Walking l listing) (hcount : count ≤ l.count - u.committed.length)
    (hfaults : faults events = 0) (hplace : ∀ event ∈ events, event.InPlace) :
    ∃ counted v, out = (.ok (), v) ∧ counted.length = count ∧
      Walked l listing u events counted v := by
  induction h with
  | done u =>
    exact ⟨[], u, rfl, rfl, hw, (List.append_nil _).symm, rfl, List.forall_mem_nil _, rfl⟩
  | failed hturn =>
    obtain ⟨_, _, hout, -⟩ := hw.turn hsize (by omega) hlong hturn hfaults hplace
    cases hout
  | @more count u v first rest out hturn _ ih =>
    rw [faults_append] at hfaults
    have hfirst : faults first = 0 := by omega
    have hrest : faults rest = 0 := by omega
    obtain ⟨hplace, hplace'⟩ := List.forall_mem_append.1 hplace
    obtain ⟨record, _, hout, hwalked⟩ := hw.turn hsize (by omega) hlong hturn hfirst hplace
    cases hout
    have hlength := hturn.length_committed
    obtain ⟨counted, w, hend, hcounted, hwalked'⟩ :=
      ih hwalked.walking (by omega) hrest hplace'
    refine ⟨[record] ++ counted, w, hend, ?_, hwalked.trans hwalked'⟩
    rw [List.length_append, hcounted, List.length_singleton, Nat.add_comm]

/-! ## The resumption -/

/-- Without a fault a walk that begins with no record ends with a commit of all of them. -/
theorem Walking.finish (hw : u.Walking l listing) (hbegin : u.committed = [])
    (hfits : session.Fits l.fileSize) (hsize : l.partSize = session.partSize.toNat)
    (hcount : l.count = session.totalParts.toNat) (hlong : l.size ≤ l.content.length)
    {out : Except (TransferError ε) RemoteFile × Uploader} (h : Finish session u events out)
    (hfaults : faults events = 0) (hplace : ∀ event ∈ events, event.InPlace) :
    ∃ file w loop, out = (.ok file, w) ∧ w.committed.length = l.count ∧
      Walked (ε := ε) l listing u loop w.committed w ∧
      calls events = calls loop ++ [.committed w.digest.finish w.committed (.ok file)] := by
  have hloop : ∀ {loop closing : List (Transfer.Event ε)}
      {last : Except (TransferError ε) Unit × Uploader}, events = loop ++ closing →
      Turns session (session.totalParts.toNat - u.committed.length) u loop last →
      ∃ w, last = (.ok (), w) ∧ w.committed.length = l.count ∧
        Walked l listing u loop w.committed w := by
    rintro loop closing last rfl hturns
    rw [faults_append] at hfaults
    obtain ⟨counted, w, rfl, hcounted, hwalked⟩ := hw.turns hsize hlong hturns
      (Nat.le_of_eq (by rw [hcount])) (by omega) (List.forall_mem_append.1 hplace).1
    have hcommitted : w.committed = counted := by rw [hwalked.committed_eq, hbegin, List.nil_append]
    refine ⟨w, rfl, ?_, hcommitted ▸ hwalked⟩
    rw [hcommitted, hcounted, hbegin, hcount]
    rfl
  cases h with
  | misfit hcheck =>
    rw [hw.sound.fileSize_eq, Geometry.check_eq_ok_iff.2 hfits] at hcheck
    cases hcheck
  | stopped _ hturns =>
    obtain ⟨_, hlast, -⟩ := hloop (List.append_nil _).symm hturns
    cases hlast
  | refused =>
    rw [faults_append] at hfaults
    cases (Nat.add_eq_zero_iff.1 hfaults).2
  | @committed loop file _ _ hturns =>
    obtain ⟨_, hlast, hall, hwalked⟩ := hloop rfl hturns
    cases hlast
    refine ⟨file, _, loop, rfl, hall, hwalked, ?_⟩
    rw [calls_append]
    rfl

/-- For an upload that has not begun, an empty listing is no news. -/
theorem adopt_nil_ofReader (reader : Reader) (fileSize : UInt64) :
    (ofReader reader fileSize).adopt [] = ofReader reader fileSize := rfl

/-- When the upload of a file that its stream has in full begins by resuming, over a session that
fits, it comes to an end, whatever is listed. If then neither the session nor the stream fails, and
the session's records name the offsets that it was sent, it ends with a file. It sends exactly the
parts at the offsets that are not listed, in order, with the bytes that the content has there, and
then commits the digest of all the file's bytes and one record for each part, in order: a listed one
where there is one, and else the one that the session has answered with. By then it has read and
hashed the whole file. If nothing is listed, what is asked after the listing, what comes out and
what state is left, is what a start leads to. -/
theorem resumes_from_another_process {fileSize : UInt64} (hfits : session.Fits fileSize)
    {reader : Reader} (hlong : fileSize.toNat ≤ reader.content.length)
    (hquiet : reader.failures = 0) :
    (∀ (listing : List Part)
        (answer : List (Transfer.Event ε) → (call : TransferCall) → call.Answer ε),
      ∃ events out, History ((ofReader reader fileSize).resume session)
          (Transfer.Event.listed (.ok listing) :: events) out ∧
        Follows answer [Transfer.Event.listed (.ok listing)] events) ∧
    (∀ (listing : List Part) (events : List (Transfer.Event ε))
        (result : Except (TransferError ε) RemoteFile) (w : Uploader),
      History ((ofReader reader fileSize).resume session)
        (Transfer.Event.listed (.ok listing) :: events) (result, w) →
      faults events = 0 →
      (∀ event ∈ events, event.InPlace) →
      ∃ file records, result = .ok file ∧
        records.map (·.offset.toNat) = Geometry.grid fileSize.toNat session.partSize.toNat ∧
        (∀ p ∈ records, p.offset.toNat ∈ listing.map (·.offset.toNat) → p ∈ listing) ∧
        calls events =
          sendings reader.content fileSize session.partSize.toNat listing records ++
            [.committed (Sha1.hash (reader.content.take fileSize.toNat)) records (.ok file)] ∧
        w.digestedThrough = fileSize.toNat ∧
        ∃ source, w.content = some source ∧ source.position = fileSize.toNat) ∧
    ∀ (events : List (Transfer.Event ε)) (out : Except (TransferError ε) RemoteFile × Uploader),
      History ((ofReader reader fileSize).resume session)
          (Transfer.Event.listed (.ok []) :: events) out ↔
        History ((ofReader reader fileSize).start session) events out := by
  refine ⟨exists_history_resume_listed rfl, ?_, fun events out => ?_⟩
  · intro listing events result w h hfaults hplace
    let l : Layout := hfits.layout reader
    have hw : ((ofReader reader fileSize).adopt listing).Walking l listing :=
      walking_adopt l hquiet listing
    obtain ⟨file, w, loop, hout, hall, hwalked, hcalls⟩ := hw.finish rfl hfits rfl hfits.2.symm
      hlong ((history_resume_listed_iff rfl).1 h) hfaults hplace
    cases hout
    have hsound := hwalked.walking.sound
    obtain ⟨source, hcontent, hposition⟩ := hwalked.walking.position_eq hlong
    rw [hall] at hsound hposition
    have hthrough : w.digestedThrough = fileSize.toNat := hsound.through_eq.trans l.reach_count
    refine ⟨file, w.committed, rfl, ?_, hwalked.mem_listing, ?_, hthrough, source, hcontent,
      hposition.trans l.reach_count⟩
    · rw [hwalked.offsets_eq, hall]
      exact congrArg (List.map _) List.range_eq_range'.symm
    · rw [hcalls, hwalked.calls_eq, hsound.digest_eq, Sha1.Rolling.finish_feed, l.reach_count]
      rfl
  · rw [history_resume_listed_iff rfl, adopt_nil_ofReader, ← history_finish_iff]
    rfl

/-- Of the two parts of a file the second is listed, and the stream is longer than the file. The
resumption sends the first part and commits both. -/
theorem resumes_with_second_part_listed :
    let session : Session := ⟨"two", 2, 1⟩
    let reader : Reader := .ofBytes [1, 2, 3]
    let first : Part := ⟨"a", 0, 1, ""⟩
    let second : Part := ⟨"b", 1, 1, ""⟩
    let file : RemoteFile := ⟨"f", "file", "data.bin", none, "", none, none, none⟩
    session.Fits 2 ∧ 2 ≤ reader.content.length ∧ reader.failures = 0 ∧
    ∃ (events : List (Transfer.Event String)) (w : Uploader),
      History ((ofReader reader 2).resume session)
        (Transfer.Event.listed (.ok [second]) :: events) (.ok file, w) ∧
      faults events = 0 ∧
      calls events = [.sent [1] 0 2 (.ok first),
        .committed (Sha1.hash [1, 2]) [first, second] (.ok file)] ∧ w.digestedThrough = 2 := by
  intro session reader first second file
  let u : Uploader := (ofReader reader 2).adopt [second]
  let read : Uploader := { u with content := some ⟨⟨[.data [2, 3] none], [1]⟩, 1, [], false⟩ }
  let sent : Uploader := (read.hash ⟨0, [1]⟩).account first
  let read' : Uploader := { sent with content := some ⟨⟨[.data [3] none], [1, 1]⟩, 2, [], false⟩ }
  let w : Uploader := (read'.hash ⟨1, [2]⟩).account second
  have hsent : Turn (ε := String) session u
      [.sent [1] 0 (read.hash ⟨0, [1]⟩).fileSize (.ok first), sent.accounted session]
      (.ok (), sent) := @Turn.stored _ _ _ ⟨0, [1]⟩ first read (by cbv) (by cbv)
  have hreused : Turn (ε := String) session sent [w.accounted session] (.ok (), w) :=
    @Turn.reused _ _ _ ⟨1, [2]⟩ second read' (by cbv) (by cbv)
  have hfits : session.Fits 2 := by decide
  have hlong : (2 : UInt64).toNat ≤ reader.content.length := by decide
  have hturns : Turns session 2 u _ (.ok (), w) := .more hsent (.more hreused (.done w))
  have hfinish : Finish session u _ (.ok file, w) :=
    .committed (Geometry.check_eq_ok_iff.2 hfits) hturns
  let events : List (Transfer.Event String) :=
    [.sent [1] 0 2 (.ok first), sent.accounted session, w.accounted session,
      .reported (w.progress session .committing),
      .committed w.digest.finish [first, second] (.ok file),
      .reported (w.progress session .committed)]
  have h : History ((ofReader reader 2).resume session)
      (Transfer.Event.listed (.ok [second]) :: events) (.ok file, w) :=
    (history_resume_listed_iff rfl).2 hfinish
  have hplace : ∀ event ∈ events, event.InPlace := by
    simp only [events, List.forall_mem_cons]
    exact ⟨rfl, trivial, trivial, trivial, trivial, trivial, List.forall_mem_nil _⟩
  obtain ⟨-, hresumes, -⟩ := resumes_from_another_process (ε := String) hfits hlong rfl
  obtain ⟨_, records, hok, _, _, hcalls, hthrough, -⟩ := hresumes _ _ _ _ h rfl hplace
  -- The commit is the last that is asked for.
  have hlast : Transfer.Event.committed w.digest.finish [first, second] (.ok file) = _ :=
    Option.some.inj ((congrArg List.getLast? hcalls).trans (List.getLast?_concat ..))
  obtain ⟨hdigest, -, -⟩ := Transfer.Event.committed_inj hlast
  refine ⟨hfits, hlong, rfl, events, w, h, rfl, ?_, hthrough⟩
  show [_, Transfer.Event.committed w.digest.finish _ _] = _
  rw [hdigest]
  rfl

end Uploader

end ResumableUpload
