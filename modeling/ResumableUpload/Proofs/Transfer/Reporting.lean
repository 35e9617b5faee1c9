import ResumableUpload.Proofs.Transfer.Committing

/-!
# What an upload reports

Over a session whose records are those of the file's parts, the reports of an attempt tell how many
parts are accounted for, one after the other, and nothing else (`reports_count_parts`). Each comes
right behind what accounts for its part, be it that the part has been sent or that its record is
known; a part that fails is not reported (`Session.Counts`). If all parts are accounted for, the
reports around the commit follow (`Session.closing`).

A report gives the sizes of the records that count, so what it says of bytes rests on the records
covering the first parts (`Layout.Covers.totalSize_add_reach`). That they do is kept by every turn
(`Tidy`).
-/

namespace ResumableUpload

variable {ε : Type}

/-- What is reported. -/
def Transfer.Event.report? : Transfer.Event ε → Option Progress
  | ⟨.report progress, _⟩ => some progress
  | _ => none

/-- The reports, in their order. -/
def reports (events : List (Transfer.Event ε)) : List Progress := events.filterMap (·.report?)

theorem reports_append (before after : List (Transfer.Event ε)) :
    reports (before ++ after) = reports before ++ reports after :=
  List.filterMap_append

namespace Session

/-- How far an upload is when so many parts are accounted for. -/
def progressAt (session : Session) (fileSize : UInt64) (count : Nat) : Progress where
  sessionId := session.id
  status := .inProgress
  totalBytes := fileSize
  transferredBytes := (min (count * session.partSize.toNat) fileSize.toNat).toUInt64
  partsDone := count.toUInt64
  totalParts := session.totalParts

/-- How far an upload is when every part is accounted for. -/
def progressOfAll (session : Session) (fileSize : UInt64) (status : Status) : Progress :=
  ⟨session.id, status, fileSize, fileSize, session.totalParts, session.totalParts⟩

/-- What the loop asks while the number of parts that are accounted for goes from one to another. A
part is reported when it has been sent, or when its record is known. The part behind the last may
have been sent in vain. -/
inductive Counts (session : Session) (fileSize : UInt64) :
    Nat → Nat → List (Transfer.Event ε) → Prop
  | stop (count : Nat) : Counts session fileSize count count []
  | refused (count : Nat) {bytes : Bytes} {e : TransferError ε} :
      Counts session fileSize count count
        [.sent bytes (count * session.partSize.toNat) fileSize (.error e)]
  | known {count last : Nat} {rest : List (Transfer.Event ε)}
      (hrest : Counts session fileSize (count + 1) last rest) :
      Counts session fileSize count last
        (.reported (session.progressAt fileSize (count + 1)) :: rest)
  | stored {count last : Nat} {bytes : Bytes} {record : Part} {rest : List (Transfer.Event ε)}
      (hrest : Counts session fileSize (count + 1) last rest) :
      Counts session fileSize count last
        (.sent bytes (count * session.partSize.toNat) fileSize (.ok record) ::
          .reported (session.progressAt fileSize (count + 1)) :: rest)

/-- A commit with this result, and the reports around it. -/
def closing (session : Session) (fileSize : UInt64) (digest : Sha1.Digest) (parts : List Part)
    (result : Except (TransferError ε) RemoteFile) : List (Transfer.Event ε) :=
  .reported (session.progressOfAll fileSize .committing) :: .committed digest parts result ::
    match result with
    | .ok _ => [.reported (session.progressOfAll fileSize .committed)]
    | .error _ => []

/-- What comes behind the loop: the commit if every part is accounted for, and nothing if not. -/
inductive Concludes (session : Session) (fileSize : UInt64) (count : Nat) :
    List (Transfer.Event ε) → Except (TransferError ε) RemoteFile → Prop
  | short {e : TransferError ε} (hshort : count < session.totalParts.toNat) :
      Concludes session fileSize count [] (.error e)
  | all {digest : Sha1.Digest} {parts : List Part} {result : Except (TransferError ε) RemoteFile}
      (hall : count = session.totalParts.toNat) :
      Concludes session fileSize count (session.closing fileSize digest parts result) result

/-- The reports behind those of the parts, if so many of these are accounted for. -/
def lastReports (session : Session) (fileSize : UInt64) (count : Nat)
    (result : Except (TransferError ε) RemoteFile) : List Progress :=
  if count = session.totalParts.toNat then
    session.progressOfAll fileSize .committing ::
      match result with
      | .ok _ => [session.progressOfAll fileSize .committed]
      | .error _ => []
  else []

variable {session : Session} {fileSize : UInt64} {count last : Nat}
  {events : List (Transfer.Event ε)} {result : Except (TransferError ε) RemoteFile}

theorem Concludes.reports_eq (h : session.Concludes fileSize count events result) :
    reports events = session.lastReports fileSize count result := by
  cases h with
  | short hshort => exact (if_neg (Nat.ne_of_lt hshort)).symm
  | all hall => cases result <;> exact (if_pos hall).symm

/-- No number in a report is cut off. -/
theorem progressAt_toNat (session : Session) (fileSize : UInt64)
    (hcount : count ≤ session.totalParts.toNat) :
    (session.progressAt fileSize count).partsDone.toNat = count ∧
      (session.progressAt fileSize count).transferredBytes.toNat =
        min (count * session.partSize.toNat) fileSize.toNat := by
  constructor
  · exact UInt64.toNat_ofNat_of_lt' (Nat.lt_of_le_of_lt hcount session.totalParts.toNat_lt)
  · exact UInt64.toNat_ofNat_of_lt' (Nat.lt_of_le_of_lt (Nat.min_le_right _ _) fileSize.toNat_lt)

theorem Counts.le (h : session.Counts fileSize count last events) : count ≤ last := by
  induction h with
  | stop => exact Nat.le_refl _
  | refused => exact Nat.le_refl _
  | known _ ih => exact Nat.le_of_succ_le ih
  | stored _ ih => exact Nat.le_of_succ_le ih

/-- The reports of the parts behind the first of several. -/
theorem progressAt_cons (hlt : count + 1 ≤ last) :
    session.progressAt fileSize (count + 1) ::
        (List.range' (count + 1 + 1) (last - (count + 1))).map (session.progressAt fileSize) =
      (List.range' (count + 1) (last - count)).map (session.progressAt fileSize) := by
  have hmore : last - count = last - (count + 1) + 1 := by omega
  rw [hmore, List.range'_succ, List.map_cons]

/-- There is one report for each part that has been accounted for, in order. -/
theorem Counts.reports_eq (h : session.Counts fileSize count last events) :
    reports events =
      (List.range' (count + 1) (last - count)).map (session.progressAt fileSize) := by
  induction h with
  | stop => rw [Nat.sub_self]; rfl
  | refused => rw [Nat.sub_self]; rfl
  | known hrest ih => rw [← progressAt_cons hrest.le, ← ih]; rfl
  | stored hrest ih => rw [← progressAt_cons hrest.le, ← ih]; rfl

end Session

/-! ## What a report says -/

/-- Records that cover the first parts stand for as many bytes as these reach. -/
theorem Layout.Covers.totalSize_add_reach {l : Layout} {i : Nat} {parts : List Part}
    (h : l.Covers i parts) (hi : i + parts.length ≤ l.count) :
    Part.totalSize parts + l.reach i = l.reach (i + parts.length) := by
  induction parts generalizing i with
  | nil => exact Nat.zero_add _
  | cons p rest ih =>
    obtain ⟨-, hsize, hrest⟩ := h
    simp only [List.length_cons] at hi
    have hlt : i < l.count := by omega
    have hlength : i + (p :: rest).length = i + 1 + rest.length := by
      rw [List.length_cons]; omega
    have hnext := ih hrest (by omega)
    rw [l.reach_succ hlt] at hnext
    rw [hlength, ← hnext, l.reach_of_lt hlt, Part.totalSize, hsize]
    omega

namespace Uploader

variable {session : Session} {l : Layout} {k : Nat} {u v w : Uploader}
  {events : List (Transfer.Event ε)}

/-- No more records count than the file has parts. -/
theorem Tidy.length_le (h : u.Tidy l) (hs : u.Sound l k) : u.committed.length ≤ l.count := by
  have hle := hs.hashedParts_eq ▸ h.inStep.1
  exact Nat.le_trans hle hs.count_le

/-- The records that count stand for the bytes that so many parts reach. -/
theorem Tidy.transferred_eq (h : u.Tidy l) (hs : u.Sound l k) :
    u.transferred = l.reach u.committed.length := by
  have hsum := h.covers.totalSize_add_reach (by rw [Nat.zero_add]; exact h.length_le hs)
  rwa [l.reach_zero, Nat.add_zero, Nat.zero_add] at hsum

/-- A report tells how many parts are accounted for. -/
theorem Tidy.progress_eq (h : u.Tidy l) (hs : u.Sound l k)
    (hsize : l.partSize = session.partSize.toNat) :
    u.progress session .inProgress = session.progressAt l.fileSize u.committed.length := by
  rw [progress, h.transferred_eq hs, hs.fileSize_eq, Layout.reach, hsize]
  rfl

/-- When no record is missing, a report tells that every part is accounted for. -/
theorem Tidy.progress_eq_of_all (h : u.Tidy l) (hs : u.Sound l k)
    (hcount : l.count = session.totalParts.toNat) (hall : u.committed.length = l.count)
    (status : Status) :
    u.progress session status = session.progressOfAll l.fileSize status := by
  rw [progress, h.transferred_eq hs, hs.fileSize_eq, hall, l.reach_count, hcount]
  simp only [Layout.size, Session.progressOfAll, Nat.toUInt64_eq, UInt64.ofNat_toNat]

/-! ## The loop -/

/-- A loop reports the parts that it accounts for. It falls short of what it was to account for
exactly if it fails. -/
theorem Turns.counts (hsize : l.partSize = session.partSize.toNat)
    (hcount : l.count = session.totalParts.toNat) {count : Nat}
    {out : Except (TransferError ε) Unit × Uploader} (h : Turns session count u events out)
    (hle : u.committed.length + count ≤ l.count) (hs : u.Sound l k) (htidy : u.Tidy l)
    (htold : ∀ event ∈ events, event.WellFormed l.size l.partSize) :
    session.Counts l.fileSize u.committed.length out.2.committed.length events ∧
      (∀ e, out.1 = .error e → out.2.committed.length < u.committed.length + count) := by
  induction h generalizing k with
  | done => exact ⟨.stop _, nofun⟩
  | @failed count u w events e hturn =>
    have hstep := hturn.step hs hsize (by omega)
    cases hstep with
    | held hready =>
      simp only [hready.committed_eq, hsize]
      exact ⟨.refused _, fun _ _ => by omega⟩
    | failed hdrawn =>
      rw [(hdrawn.sound_of_error hs).2]
      exact ⟨.stop _, fun _ _ => by simp only; omega⟩
  | @more count u v first rest out hturn _ ih =>
    obtain ⟨hfirst, hrest⟩ := List.forall_mem_append.1 htold
    have hlength := hturn.length_committed
    have hstep := hturn.step hs hsize (by omega)
    obtain ⟨j, -, hs'⟩ := hstep.sound hs
    have htidy' : v.Tidy l := hstep.tidy hs htidy hfirst
    obtain ⟨hcounts, hshort⟩ := ih (by omega) hs' htidy' hrest
    have hreport := htidy'.progress_eq hs' hsize
    rw [hlength] at hcounts hreport
    refine ⟨?_, fun e he => by have := hshort e he; omega⟩
    cases hstep with
    | recalled =>
      rw [accounted, hreport]
      exact .known hcounts
    | reused hready =>
      rw [accounted, hreport]
      exact .known hcounts
    | stored hready =>
      rw [accounted, hreport, hsize]
      exact .stored hcounts

/-- After a loop that was to account for every part and succeeds, no record is missing. What is
reported behind it is about the whole file. -/
theorem Turns.counts_all (hsize : l.partSize = session.partSize.toNat)
    (hcount : l.count = session.totalParts.toNat)
    (h : Turns session (session.totalParts.toNat - u.committed.length) u events (.ok (), w))
    (hs : u.Sound l k) (htidy : u.Tidy l)
    (htold : ∀ event ∈ events, event.WellFormed l.size l.partSize) :
    session.Counts l.fileSize u.committed.length w.committed.length events ∧
      w.committed.length = session.totalParts.toNat ∧
      ∀ status, w.progress session status = session.progressOfAll l.fileSize status := by
  have hbegin := htidy.length_le hs
  obtain ⟨⟨⟨⟨j, hs'⟩, htidy'⟩, -⟩, hdone⟩ :=
    (kept_tidy hsize hcount).of_turns h (Nat.le_refl _) ⟨⟨k, hs⟩, htidy⟩ htold
  have hlength : w.committed.length = _ := hdone rfl
  have hall : w.committed.length = l.count := by omega
  exact ⟨(h.counts hsize hcount (by omega) hs htidy htold).1, hall.trans hcount,
    htidy'.progress_eq_of_all hs' hcount hall⟩

/-! ## An attempt -/

/-- The loop and the commit report the parts that they account for, and then the commit if there is
one. -/
theorem Finish.counts (hsize : l.partSize = session.partSize.toNat)
    (hcount : l.count = session.totalParts.toNat)
    (hfits : Geometry.check l.fileSize session.partSize session.totalParts = .ok ())
    {result : Except (TransferError ε) RemoteFile}
    (h : Finish session u events (result, w)) (hs : u.Sound l k) (htidy : u.Tidy l)
    (htold : ∀ event ∈ events, event.WellFormed l.size l.partSize) :
    ∃ loop ending, events = loop ++ ending ∧
      session.Counts l.fileSize u.committed.length w.committed.length loop ∧
      session.Concludes l.fileSize w.committed.length ending result := by
  cases h with
  | misfit hcheck =>
    rw [hs.fileSize_eq, hfits] at hcheck
    cases hcheck
  | stopped _ hturns =>
    have hbegin := htidy.length_le hs
    obtain ⟨hcounts, hshort⟩ := hturns.counts hsize hcount (by omega) hs htidy htold
    have hlt : w.committed.length < _ := hshort _ rfl
    exact ⟨events, [], (List.append_nil _).symm, hcounts, .short (by omega)⟩
  | refused _ hturns =>
    obtain ⟨hcounts, hall, hreport⟩ :=
      hturns.counts_all hsize hcount hs htidy (List.forall_mem_append.1 htold).1
    rw [hreport]
    exact ⟨_, _, rfl, hcounts, .all hall⟩
  | committed _ hturns =>
    obtain ⟨hcounts, hall, hreport⟩ :=
      hturns.counts_all hsize hcount hs htidy (List.forall_mem_append.1 htold).1
    rw [hreport, hreport]
    exact ⟨_, _, rfl, hcounts, .all hall⟩

/-- The loop begins with records that cover the first parts, if the listing is one of parts. -/
theorem Tidy.entering (h : u.Tidy l) (hs : u.Sound l k) {kind : Attempt}
    (htold : ∀ event ∈ events, event.WellFormed l.size l.partSize) :
    (u.entering kind events).Tidy l := by
  rw [Uploader.entering.eq_def]
  split
  · exact hs.tidy_adopt (htold _ List.mem_cons_self)
  · exact h

/-- An attempt ends before the loop, or goes through it. -/
theorem Attempted.ends_or_finish {kind : Attempt} {result : Except (TransferError ε) RemoteFile}
    (h : Attempted session u kind events (result, w)) :
    (∃ e, result = .error e ∧
      (u.aborted = true ∧ events = [] ∨ kind = .resume ∧ events = [.listed (.error e)])) ∨
    ∃ opening rest, events = opening ++ rest ∧
      (kind = .start ∧ opening = [] ∨
        kind = .resume ∧ ∃ listing, opening = [.listed (.ok listing)]) ∧
      Finish session (u.entering kind events) rest (result, w) := by
  cases h with
  | aborted _ habort => exact .inl ⟨_, rfl, .inl ⟨habort, rfl⟩⟩
  | unlisted => exact .inl ⟨_, rfl, .inr ⟨rfl, rfl⟩⟩
  | start _ hfinish => exact .inr ⟨[], events, rfl, .inl ⟨rfl, rfl⟩, hfinish⟩
  | @resume listing rest _ _ hfinish =>
    exact .inr ⟨[.listed (.ok listing)], rest, rfl, .inr ⟨rfl, listing, rfl⟩, hfinish⟩

/-- After any sequence of attempts and aborts, over a session that fits, whose listings name nothing
but parts of the file, and whose records of parts that it has taken name what it was sent: an
attempt that gets to the loop reports each part that it accounts for, one after the other, and none
else. Only if all parts are accounted for does it report that it commits, before it does, and only
if the commit is granted that it has committed. An attempt that does not get to the loop reports
nothing. -/
theorem reports_count_parts {fileSize : UInt64} (hfits : session.Fits fileSize) {reader : Reader}
    {moves : List Move} {before : List (Transfer.Event ε)}
    (hbefore : Program.History (play session moves (.ofReader reader fileSize)) before u)
    {kind : Attempt} {result : Except (TransferError ε) RemoteFile}
    (h : Program.History (u.attempt session kind) events (result, w))
    (htold : ∀ event ∈ before ++ events,
      event.WellFormed fileSize.toNat session.partSize.toNat) :
    (∃ e, result = .error e ∧ reports events = [] ∧
      (u.aborted = true ∧ events = [] ∨ kind = .resume ∧ events = [.listed (.error e)])) ∨
    ∃ opening loop ending, events = opening ++ loop ++ ending ∧
      (kind = .start ∧ opening = [] ∨
        kind = .resume ∧ ∃ listing, opening = [.listed (.ok listing)]) ∧
      (u.entering kind events).committed.length ≤ w.committed.length ∧
      w.committed.length ≤ session.totalParts.toNat ∧
      session.Counts fileSize (u.entering kind events).committed.length w.committed.length loop ∧
      session.Concludes fileSize w.committed.length ending result ∧
      reports events =
        (List.range' ((u.entering kind events).committed.length + 1)
            (w.committed.length - (u.entering kind events).committed.length)).map
          (session.progressAt fileSize) ++ session.lastReports fileSize w.committed.length result ∧
      ∀ count ≤ w.committed.length,
        (session.progressAt fileSize count).partsDone.toNat = count ∧
        (session.progressAt fileSize count).transferredBytes.toNat =
          min (count * session.partSize.toNat) fileSize.toNat := by
  obtain ⟨htoldBefore, htold⟩ := List.forall_mem_append.1 htold
  have hkept := kept_tidy (ε := ε) (l := hfits.layout reader) rfl hfits.2.symm
  obtain ⟨⟨⟨k, hs⟩, htidy⟩, -⟩ := hkept.of_played (history_play_iff.1 hbefore)
    ⟨⟨0, sound_ofReader _⟩, tidy_ofReader _⟩ htoldBefore
  have hattempted := history_attempt_iff.1 h
  obtain ⟨⟨⟨j, hend⟩, htidyEnd⟩, -⟩ := hkept.of_attempted hattempted ⟨⟨k, hs⟩, htidy⟩ htold
  have hle : w.committed.length ≤ session.totalParts.toNat := hfits.2.symm ▸ htidyEnd.length_le hend
  rcases hattempted.ends_or_finish with ⟨e, rfl, hends⟩ | ⟨opening, rest, hevents, hopening, hfinish⟩
  · refine .inl ⟨e, rfl, ?_, hends⟩
    rcases hends with ⟨-, rfl⟩ | ⟨-, rfl⟩
    · rfl
    · rfl
  · have htoldRest : ∀ event ∈ rest, event.WellFormed fileSize.toNat session.partSize.toNat :=
      fun event hmem => htold event (hevents ▸ List.mem_append_right opening hmem)
    have hnone : reports opening = [] := by
      rcases hopening with ⟨-, rfl⟩ | ⟨-, _, rfl⟩
      · rfl
      · rfl
    obtain ⟨loop, ending, rfl, hcounts, hconcludes⟩ :=
      hfinish.counts (l := hfits.layout reader) rfl hfits.2.symm (Geometry.check_eq_ok_iff.2 hfits)
        (hs.entering kind) (htidy.entering hs htold) htoldRest
    have hreports : reports events = reports loop ++ reports ending := by
      rw [hevents, reports_append, reports_append, hnone, List.nil_append]
    rw [← List.append_assoc] at hevents
    refine .inr ⟨opening, loop, ending, hevents, hopening, hcounts.le, hle, hcounts, hconcludes, ?_,
      fun count hcount => session.progressAt_toNat fileSize (Nat.le_trans hcount hle)⟩
    rw [hreports, hcounts.reports_eq, hconcludes.reports_eq]
    rfl

/-- The first attempt stores one of two parts. The second begins with one part, stores the other,
and commits. -/
theorem reports_second_of_two_parts :
    let session : Session := ⟨"three", 2, 2⟩
    let reader : Reader := .ofBytes [1, 2, 3]
    session.Fits 3 ∧ ∃ (before events : List (Transfer.Event String)) (u w : Uploader)
        (file : RemoteFile),
      Program.History (play session [.attempt .start] (.ofReader reader 3)) before u ∧
      Program.History (u.attempt session .start) events (.ok file, w) ∧
      (∀ event ∈ before ++ events, event.WellFormed 3 2) ∧
      reports before = [⟨"three", .inProgress, 3, 2, 1, 2⟩] ∧
      reports events = [⟨"three", .inProgress, 3, 3, 2, 2⟩, ⟨"three", .committing, 3, 3, 2, 2⟩,
        ⟨"three", .committed, 3, 3, 2, 2⟩] := by
  intro session reader
  let first : Part := ⟨"a", 0, 2, ""⟩
  let second : Part := ⟨"b", 2, 1, ""⟩
  let file : RemoteFile := ⟨"f", "file", "three.bin", some 3, "", none, none, none⟩
  have hfits : session.Fits 3 := by decide
  have hcheck := Geometry.check_eq_ok_iff.2 hfits
  obtain ⟨u, hstart, hu⟩ := exists_interrupted hfits [1, 2] [3] [] first (.session "reset") rfl
    (List.cons_ne_nil _ _) rfl (by decide)
  let opened : Uploader := { u with slot := .idle }
  have hnext : u.next (ε := String) session.partSize.toNat =
      (.ok (.atHand ⟨2, [3]⟩), opened) :=
    next_of_waiting hu.slot_eq (by rw [hu.committed_eq]; rfl)
  have hunknown : (opened.hash ⟨2, [3]⟩).known[2]? = none := by
    rw [known_hash]
    exact hu.unknown
  let w : Uploader := (opened.hash ⟨2, [3]⟩).account second
  have hsent : Turn (ε := String) session u _ (.ok (), w) := .stored hnext hunknown
  have hlast : Turns session 1 u _ _ := .more hsent (.done w)
  have hcount : session.totalParts.toNat - u.committed.length = 1 := by
    rw [hu.committed_eq]
    rfl
  have hlength : w.committed.length = 2 := by
    rw [length_committed_account, committed_hash, show opened.committed = _ from hu.committed_eq]
    rfl
  have hechoes : first.Echoes [1, 2] 0 ∧ second.Echoes [3] 2 := by decide
  obtain ⟨before, hbefore, hreported, htoldBefore⟩ : ∃ before : List (Transfer.Event String),
      Program.History (play session [.attempt .start] (.ofReader reader 3)) before u ∧
      reports before = [⟨"three", .inProgress, 3, 2, 1, 2⟩] ∧
      ∀ event ∈ before, event.WellFormed 3 2 := by
    refine ⟨_, history_play_iff.2 (.cons (.attempt hstart) (.nil u)), ?_, ?_⟩
    · show [u.progress session .inProgress] = _
      rw [progress, transferred, hu.committed_eq, hu.fileSize_eq]
      rfl
    · simp only [List.forall_mem_append, List.forall_mem_cons]
      exact ⟨⟨hechoes.1, trivial, trivial, List.forall_mem_nil _⟩, List.forall_mem_nil _⟩
  obtain ⟨events, h, htold⟩ : ∃ events : List (Transfer.Event String),
      Program.History (u.attempt session .start) events (.ok file, w) ∧
      ∀ event ∈ events, event.WellFormed 3 2 := by
    refine ⟨_, history_attempt_iff.2 (.start hu.active
      (.committed (hu.fileSize_eq.symm ▸ hcheck) (hcount.symm ▸ hlast))), ?_⟩
    simp only [List.forall_mem_append, List.forall_mem_cons]
    exact ⟨⟨⟨hechoes.2, trivial, List.forall_mem_nil _⟩, List.forall_mem_nil _⟩, trivial, trivial,
      trivial, List.forall_mem_nil _⟩
  have htoldAll := List.forall_mem_append.2 ⟨htoldBefore, htold⟩
  refine ⟨hfits, before, events, u, w, file, hbefore, h, htoldAll, hreported, ?_⟩
  rcases reports_count_parts hfits hbefore h htoldAll with
    ⟨_, hresult, -⟩ | ⟨_, _, _, -, -, -, -, -, -, hreports, -⟩
  · cases hresult
  · rw [hreports, hlength, show u.entering .start events = u from rfl, hu.committed_eq]
    cbv

end Uploader

end ResumableUpload
