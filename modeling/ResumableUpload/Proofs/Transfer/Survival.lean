import ResumableUpload.Proofs.Transfer.Honest
import ResumableUpload.Proofs.Transfer.Persistence

/-!
# Faults are survived

Over an honest session, and with a stream that is long enough, an attempt fails only at the cost of
a fault, and then leaves the upload in a state from which it can go on (`Excused`). So no more
faults than further attempts are allowed cannot keep an upload from its file
(`survives_bounded_faults`).

Between attempts it is enough that every part that has been hashed is in the slot or held by the
session (`Safe`). Within an attempt the upload also knows of the parts that the session holds, and
the records that count keep step (`Steady`).
-/

namespace ResumableUpload.Uploader

variable {ε : Type} {session : Session} {l : Layout} {k : Nat} {u v w : Uploader}
  {held held' : List Part} {events : List (Transfer.Event ε)}

/-- An upload that can go on: every part that has been hashed is in the slot or held. -/
structure Safe (l : Layout) (k : Nat) (u : Uploader) (held : List Part) : Prop where
  sound : u.Sound l k
  active : u.aborted = false
  grid : ∀ p ∈ held, p.OnGrid l.size l.partSize
  kept : ∀ i < k, u.slot = .holding (l.piece i) ∨ l.Held i held

/-- An upload that is going on: every part that has been hashed is in the slot or known, and what is
known is held. -/
structure Steady (l : Layout) (k : Nat) (u : Uploader) (held : List Part) : Prop where
  sound : u.Sound l k
  active : u.aborted = false
  grid : ∀ p ∈ held, p.OnGrid l.size l.partSize
  tidy : u.Tidy l
  recoverable : ∀ i < k, u.slot = .holding (l.piece i) ∨ (u.known[i * l.partSize]?).isSome
  known_held : ∀ i, (u.known[i * l.partSize]?).isSome → l.Held i held

theorem Steady.safe (h : Steady l k u held) : Safe l k u held where
  sound := h.sound
  active := h.active
  grid := h.grid
  kept i hi := (h.recoverable i hi).imp_right (h.known_held i)

/-- An upload that has not begun is steady, whatever is held. -/
theorem steady_ofReader (l : Layout) (hgrid : ∀ p ∈ held, p.OnGrid l.size l.partSize) :
    Steady l 0 (ofReader l.stream l.fileSize) held where
  sound := sound_ofReader l
  active := rfl
  grid := hgrid
  tidy := tidy_ofReader l
  recoverable := nofun
  known_held := by
    intro i hknown
    simp only [ofReader, Std.ExtTreeMap.getElem?_empty, Option.isSome_none, Bool.false_eq_true]
      at hknown

/-- With the list of what the session holds, an upload that can go on goes on. -/
theorem Safe.adopt (h : Safe l k u held) {listing : List Part} (hlisting : listing.Perm held) :
    Steady l k (u.adopt listing) held where
  sound := h.sound.adopt listing
  active := h.active
  grid := h.grid
  tidy := h.sound.tidy_adopt fun p hp => h.grid p (hlisting.mem_iff.1 hp)
  recoverable := by
    have hlisted : ∀ i, l.Held i held →
        ((PartIndex.ofListing listing)[i * l.partSize]?).isSome := by
      rintro i ⟨p, hp, hoffset⟩
      rw [← hoffset]
      exact PartIndex.isSome_getElem?_ofListing (hlisting.mem_iff.2 hp)
    intro i hi
    rcases h.kept i hi with hslot | hheld
    · simp only [Uploader.adopt]
      split
      next hlanded =>
        -- The part in the slot has landed, so it is listed.
        rw [hslot] at hlanded
        obtain ⟨p, hp, hoffset⟩ := List.any_eq_true.1 hlanded
        exact .inr (hlisted i ⟨p, hlisting.mem_iff.1 hp, of_decide_eq_true hoffset⟩)
      next => exact .inl hslot
    · exact .inr (hlisted i hheld)
  known_held := by
    intro i hknown
    obtain ⟨p, hp⟩ := Option.isSome_iff_exists.1 hknown
    obtain ⟨hmem, hoffset⟩ := PartIndex.mem_of_getElem?_ofListing hp
    exact ⟨p, hlisting.mem_iff.1 hmem, hoffset⟩

/-! ## One turn -/

/-- A failure that may go away, has used up a fault, and leaves an upload that can go on. -/
structure Excused (l : Layout) (u : Uploader) (events : List (Transfer.Event ε))
    (held' : List Part) (e : TransferError ε) (w : Uploader) : Prop where
  resumable : e.isResumable = true
  safe : ∃ j, Safe l j w held'
  spent : w.failures + 1 ≤ u.failures + faults events

/-- Counting a record of the next part goes on, if the part is held. -/
theorem Steady.account (hs : v.Sound l k) (hactive : v.aborted = false)
    (hgrid : ∀ p ∈ held, p.OnGrid l.size l.partSize) {record : Part}
    (htidy : (v.account record).Tidy l)
    (hoffset : record.offset.toNat = v.committed.length * l.partSize)
    (hheld : l.Held v.committed.length held)
    (hrecoverable : ∀ i < k, i ≠ v.committed.length →
      v.slot = .holding (l.piece i) ∨ (v.known[i * l.partSize]?).isSome)
    (hknown : ∀ i, (v.known[i * l.partSize]?).isSome → l.Held i held) :
    Steady l k (v.account record) held where
  sound := hs.account record
  active := hactive
  grid := hgrid
  tidy := htidy
  recoverable := by
    intro i hi
    by_cases hnext : i = v.committed.length
    · right
      simp only [Uploader.account, PartIndex.getElem?_note, hoffset, hnext, if_true,
        Option.isSome_some]
    · refine (hrecoverable i hi hnext).imp_right fun hsome => ?_
      simp only [Uploader.account, PartIndex.getElem?_note]
      split
      · rfl
      · exact hsome
  known_held := by
    intro i hsome
    simp only [Uploader.account, PartIndex.getElem?_note, hoffset] at hsome
    split at hsome
    next hnext =>
      obtain rfl := l.mul_inj hnext
      exact hheld
    next => exact hknown i hsome

/-- The parts before the one that is ready are known. -/
theorem Ready.known_of_lt (h : Ready l k u v) (hs : Steady l k u held) {i : Nat}
    (hi : i < u.committed.length) : (u.known[i * l.partSize]?).isSome := by
  rcases h.origin with ⟨hidle, rfl⟩ | ⟨hslot, rfl⟩
  · refine (hs.recoverable i hi).resolve_left fun hheld => ?_
    rw [hidle] at hheld
    cases hheld
  · refine (hs.recoverable i (Nat.lt_succ_of_lt hi)).resolve_left fun hheld => ?_
    rw [hslot] at hheld
    have := l.piece_inj (Slot.holding.inj hheld)
    omega

/-- Counting the record of the part that is ready goes on, if what was held still is and this part
is now. -/
theorem Ready.steady_account (h : Ready l k u v) (hs : Steady l k u held)
    (hgrid : ∀ p ∈ held', p.OnGrid l.size l.partSize) (hkeeps : ∀ i, l.Held i held → l.Held i held')
    (hheld : l.Held u.committed.length held') {record : Part} (htidy : (v.account record).Tidy l)
    (hoffset : record.offset.toNat = u.committed.length * l.partSize) :
    Steady l (u.committed.length + 1) (v.account record) held' := by
  refine .account h.sound (h.aborted_eq ▸ hs.active) hgrid htidy ?_ ?_ ?_ ?_
  · rw [h.committed_eq]
    exact hoffset
  · rw [h.committed_eq]
    exact hheld
  · intro i hi hne
    rw [h.committed_eq] at hne
    rw [h.known_eq]
    exact .inr (h.known_of_lt hs (by omega))
  · intro i hknown
    rw [h.known_eq] at hknown
    exact hkeeps i (hs.known_held i hknown)

/-- Keeping the part that is ready in the slot leaves an upload that can go on. -/
theorem Ready.safe_hold (h : Ready l k u v) (hs : Steady l k u held)
    (hgrid : ∀ p ∈ held', p.OnGrid l.size l.partSize)
    (hkeeps : ∀ i, l.Held i held → l.Held i held') :
    Safe l (u.committed.length + 1) { v with slot := .holding (l.piece u.committed.length) }
      held' where
  sound := h.hold
  active := h.aborted_eq ▸ hs.active
  grid := hgrid
  kept := by
    intro i hi
    rcases Nat.lt_succ_iff_lt_or_eq.1 hi with hlt | rfl
    · exact .inr (hkeeps i (hs.known_held i (h.known_of_lt hs hlt)))
    · exact .inl rfl

/-- In a steady state, with a stream that is long enough, nothing but a failing read can keep the
next part from being found. -/
theorem Drawn.excused {e : TransferError ε} (h : Drawn l k u (.error e, w)) (hs : Steady l k u held)
    (hlong : l.size ≤ l.content.length) (hnext : u.committed.length < l.count) :
    Excused l u ([] : List (Transfer.Event ε)) held e w := by
  cases h with
  | missing hbehind hknown =>
    obtain ⟨hlt, -⟩ := hs.tidy.inStep.lt_of_behind hs.sound hbehind
    rcases hs.recoverable _ hlt with hslot | hsome
    · rw [Behind, hslot] at hbehind
      exact absurd rfl hbehind
    · rw [hknown] at hsome
      cases hsome
  | interrupted hidle _ hsound hfailures =>
    refine ⟨rfl, ⟨k, hsound, hs.active, hs.grid, hs.safe.kept⟩, ?_⟩
    simp only [failures, Option.map_some, Option.getD_some] at hfailures ⊢
    exact Nat.le_trans hfailures (Nat.le_add_right _ _)
  | torn _ hk hshort =>
    have hend := l.reach_le_size (k := k + 1)
    omega
  | stranded hidle hahead hcontent hposition =>
    -- The source stands behind the parts that have been hashed, which are those that are counted.
    have hstep := hs.tidy.inStep.1
    rw [hs.sound.hashedParts_eq] at hstep
    obtain rfl : k = u.committed.length := Nat.le_antisymm hahead hstep
    obtain ⟨-, hpoised⟩ := hs.sound.source _ hcontent
    cases hpoised with
    | before hreach _ => exact absurd (hreach.trans (l.reach_of_lt hnext)) hposition
    | inside _ hhigh hend _ =>
      have hsize := l.reach_le_size (k := u.committed.length + 1)
      omega
  | released _ hcontent =>
    have haborted := hs.sound.released hcontent
    rw [hs.active] at haborted
    cases haborted

/-- A turn of the loop goes on, or fails at the cost of a fault. -/
theorem Step.of_steady {out : Except (TransferError ε) Unit × Uploader}
    (h : Step session l k u events out) (hs : Steady l k u held)
    (hlong : l.size ≤ l.content.length) (hnext : u.committed.length < l.count)
    (hhonest : Honestly held events held') :
    (out.1 = .ok () → (∃ j, Steady l j out.2 held') ∧ out.2.failures ≤ u.failures) ∧
      ∀ e, out.1 = .error e → Excused l u events held' e out.2 := by
  have htidy := h.tidy hs.sound hs.tidy
  cases h with
  | recalled hbehind hknown =>
    have hheld := hhonest.of_reported
    cases hheld
    have hoffset := (hs.tidy.known _ _ hknown).1
    have hthere := hs.known_held _ (Option.isSome_of_mem hknown)
    refine ⟨fun _ => ⟨⟨k, ?_⟩, Nat.le_refl _⟩, nofun⟩
    exact .account hs.sound hs.active hs.grid (htidy (List.forall_mem_singleton.2 trivial)) hoffset
      hthere (fun i hi _ => hs.recoverable i hi) hs.known_held
  | reused hready hknown =>
    have hheld := hhonest.of_reported
    cases hheld
    have hoffset := (hs.tidy.known _ _ hknown).1
    have hthere := hs.known_held _ (Option.isSome_of_mem hknown)
    refine ⟨fun _ => ⟨⟨u.committed.length + 1, ?_⟩, hready.failures_le⟩, nofun⟩
    exact hready.steady_account hs hs.grid (fun _ => id) hthere
      (htidy (List.forall_mem_singleton.2 trivial)) hoffset
  | stored hready hknown =>
    obtain ⟨hechoes, between, htakes, hrest⟩ := hhonest.of_sent_ok
    have hheld := hrest.of_reported
    cases hheld
    have hlength := hready.sound.length_le
    obtain ⟨hgrid, hthere, hkeeps⟩ := htakes.holds_parts hnext hlength hs.grid
    have hoffset := (Layout.onGrid_of_echoes hnext hlength hechoes).1
    refine ⟨fun _ => ⟨⟨u.committed.length + 1, ?_⟩, hready.failures_le⟩, nofun⟩
    exact hready.steady_account hs hgrid hkeeps hthere
      (htidy (List.forall_mem_cons.2 ⟨hechoes, List.forall_mem_singleton.2 trivial⟩)) hoffset
  | held hready hknown =>
    obtain ⟨hresumable, hheld⟩ := hhonest.of_sent_error
    have hspent := Nat.succ_le_succ hready.failures_le
    refine ⟨nofun, ?_⟩
    rintro _ ⟨⟩
    rcases hheld with rfl | htakes
    · exact ⟨hresumable, ⟨_, hready.safe_hold hs hs.grid fun _ => id⟩, hspent⟩
    · obtain ⟨hgrid, -, hkeeps⟩ := htakes.holds_parts hnext hready.sound.length_le hs.grid
      exact ⟨hresumable, ⟨_, hready.safe_hold hs hgrid hkeeps⟩, hspent⟩
  | failed hdrawn =>
    cases hhonest
    refine ⟨nofun, ?_⟩
    rintro _ ⟨⟩
    exact hdrawn.excused hs hlong hnext

/-! ## One attempt -/

/-- What happens before a fault, and costs none, makes no difference to it. -/
theorem Excused.append {e : TransferError ε} (before : List (Transfer.Event ε))
    {after : List (Transfer.Event ε)} (h : Excused l v after held' e w)
    (hfailures : v.failures ≤ u.failures) : Excused l u (before ++ after) held' e w := by
  refine ⟨h.resumable, h.safe, ?_⟩
  have hspent := h.spent
  rw [faults_append]
  omega

/-- The loop goes on to its end, or fails at the cost of a fault. -/
theorem Turns.of_steady {count : Nat} {out : Except (TransferError ε) Unit × Uploader}
    (h : Turns session count u events out) (hs : Steady l k u held)
    (hsize : l.partSize = session.partSize.toNat) (hlong : l.size ≤ l.content.length)
    (hcount : count ≤ l.count - u.committed.length) (hhonest : Honestly held events held') :
    (out.1 = .ok () → (∃ j, Steady l j out.2 held') ∧ out.2.failures ≤ u.failures) ∧
      ∀ e, out.1 = .error e → Excused l u events held' e out.2 := by
  induction h generalizing k held with
  | done =>
    cases hhonest
    exact ⟨fun _ => ⟨⟨k, hs⟩, Nat.le_refl _⟩, nofun⟩
  | failed hturn =>
    have hstep := hturn.step hs.sound hsize (by omega)
    exact hstep.of_steady hs hlong (by omega) hhonest
  | more hturn _ ih =>
    obtain ⟨between, hfirst, hrest⟩ := honestly_append_iff.1 hhonest
    have hstep := hturn.step hs.sound hsize (by omega)
    have hlength := hturn.length_committed
    obtain ⟨⟨j, hs'⟩, hfailures⟩ := (hstep.of_steady hs hlong (by omega) hfirst).1 rfl
    obtain ⟨hok, herror⟩ := ih hs' (by omega) hrest
    refine ⟨fun hout => ?_, fun e hout => (herror e hout).append _ hfailures⟩
    obtain ⟨hlast, hfailures'⟩ := hok hout
    exact ⟨hlast, Nat.le_trans hfailures' hfailures⟩

/-- The loop and the commit end with a file, or fail at the cost of a fault. -/
theorem Finish.of_steady {out : Except (TransferError ε) RemoteFile × Uploader}
    (h : Finish session u events out) (hs : Steady l k u held) (hfits : session.Fits l.fileSize)
    (hsize : l.partSize = session.partSize.toNat) (hlong : l.size ≤ l.content.length)
    (hhonest : Honestly held events held') :
    (∀ file, out.1 = .ok file → ∃ digest parts, .committed digest parts (.ok file) ∈ events) ∧
      ∀ e, out.1 = .error e → Excused l u events held' e out.2 := by
  have hcount : session.totalParts.toNat - u.committed.length ≤ l.count - u.committed.length := by
    rw [hfits.2, ← hsize]
    exact Nat.le_refl _
  cases h with
  | misfit hcheck =>
    rw [hs.sound.fileSize_eq, Geometry.check_eq_ok_iff.2 hfits] at hcheck
    cases hcheck
  | stopped _ hturns =>
    refine ⟨nofun, ?_⟩
    rintro _ ⟨⟩
    exact (hturns.of_steady hs hsize hlong hcount hhonest).2 _ rfl
  | refused _ hturns =>
    obtain ⟨between, hloop, hcommit⟩ := honestly_append_iff.1 hhonest
    obtain ⟨⟨j, hs'⟩, hfailures⟩ := (hturns.of_steady hs hsize hlong hcount hloop).1 rfl
    obtain ⟨hresumable, rfl⟩ := hcommit.of_reported.of_committed_error
    refine ⟨nofun, ?_⟩
    rintro _ ⟨⟩
    refine Excused.append _ ⟨hresumable, ⟨j, hs'.safe⟩, ?_⟩ hfailures
    exact Nat.le_refl _
  | committed =>
    refine ⟨?_, nofun⟩
    rintro _ ⟨⟩
    exact ⟨_, _, List.mem_append_right _ (List.mem_cons_of_mem _ List.mem_cons_self)⟩

/-- An attempt ends with a file, or fails at the cost of a fault. -/
theorem Attempted.of_safe {kind : Attempt} {out : Except (TransferError ε) RemoteFile × Uploader}
    (h : Attempted session u kind events out) (hs : Safe l k u held)
    (hstart : kind = .start → Steady l k u held) (hfits : session.Fits l.fileSize)
    (hsize : l.partSize = session.partSize.toNat) (hlong : l.size ≤ l.content.length)
    (hhonest : Honestly held events held') :
    (∀ file, out.1 = .ok file → ∃ digest parts, .committed digest parts (.ok file) ∈ events) ∧
      ∀ e, out.1 = .error e → Excused l u events held' e out.2 := by
  cases h with
  | aborted _ haborted =>
    rw [hs.active] at haborted
    cases haborted
  | start _ hfinish => exact hfinish.of_steady (hstart rfl) hfits hsize hlong hhonest
  | unlisted =>
    obtain ⟨hresumable, rfl⟩ := hhonest.of_listed_error
    refine ⟨nofun, ?_⟩
    rintro _ ⟨⟩
    exact ⟨hresumable, ⟨k, hs⟩, Nat.le_refl _⟩
  | resume _ hfinish =>
    obtain ⟨hlisting, hrest⟩ := hhonest.of_listed_ok
    obtain ⟨hok, herror⟩ := hfinish.of_steady (hs.adopt hlisting) hfits hsize hlong hrest
    refine ⟨fun file hfile => ?_, fun e he => ?_⟩
    · obtain ⟨digest, parts, hmem⟩ := hok file hfile
      exact ⟨digest, parts, List.mem_cons_of_mem _ hmem⟩
    · exact (herror e he).append [_] (Nat.le_refl _)

end ResumableUpload.Uploader

/-! ## All attempts -/

namespace ResumableUpload.Policy

open Program (History Follows exists_history)
open Uploader

variable {ε : Type} {session : Session} {l : Layout} {k : Nat} {u v : Uploader}
  {held held' : List Part} {events : List (Transfer.Event ε)}
  {first : Except (TransferError ε) RemoteFile}
  {outcomes : List (Except (TransferError ε) RemoteFile)}
  {out : Except (TransferError ε) RemoteFile × Uploader}

/-- A course of attempts that ends well: with a file, without giving up, and with no failure on the
way but such as may go away. -/
structure EndsWell (events : List (Transfer.Event ε))
    (outcomes : List (Except (TransferError ε) RemoteFile))
    (result : Except (TransferError ε) RemoteFile) : Prop where
  committed : ∃ file digest parts, result = .ok file ∧ .committed digest parts (.ok file) ∈ events
  pursued : ∀ event ∈ events, event.question ≠ .discard
  resumable : ∀ e, .error e ∈ outcomes → e.isResumable = true

/-- An attempt that ends with a file ends well. -/
theorem EndsWell.of_ok {file : RemoteFile} (hdiscard : ∀ event ∈ events, event.question ≠ .discard)
    (hcommitted : ∃ digest parts, .committed digest parts (.ok file) ∈ events) :
    EndsWell events [.ok file] (.ok file) := by
  obtain ⟨digest, parts, hmem⟩ := hcommitted
  refine ⟨⟨file, digest, parts, rfl, hmem⟩, hdiscard, fun e he => ?_⟩
  cases List.mem_singleton.1 he

/-- An attempt that fails for a reason that may go away, before a course that ends well. -/
theorem EndsWell.cons {before after : List (Transfer.Event ε)} {e : TransferError ε}
    {result : Except (TransferError ε) RemoteFile} (h : EndsWell after outcomes result)
    (hdiscard : ∀ event ∈ before, event.question ≠ .discard) (hresumable : e.isResumable = true) :
    EndsWell (before ++ after) (.error e :: outcomes) result := by
  obtain ⟨file, digest, parts, hfile, hmem⟩ := h.committed
  refine ⟨⟨file, digest, parts, hfile, List.mem_append_right _ hmem⟩,
    List.forall_mem_append.2 ⟨hdiscard, h.pursued⟩, fun e' he => ?_⟩
  rcases List.mem_cons.1 he with he | he
  · cases he
    exact hresumable
  · exact h.resumable e' he

variable [Fault ε] {policy : Policy}

/-- An attempt and what comes after it end well, if there are no more faults to come than attempts
are left after it. The induction is on these attempts: each that fails has used up a fault. -/
theorem endsWell_of_safe {left : Nat} {kind : Attempt} {begun rest : List (Transfer.Event ε)}
    (hbegun : Attempted session u kind begun (first, v))
    (hrest : Persisted policy session left first v rest outcomes out) (hs : Safe l k u held)
    (hstart : kind = .start → Steady l k u held) (hfits : session.Fits l.fileSize)
    (hsize : l.partSize = session.partSize.toNat) (hlong : l.size ≤ l.content.length)
    (hhonest : Honestly held (begun ++ rest) held')
    (hfaults : u.failures + faults (begun ++ rest) ≤ left) :
    EndsWell (begun ++ rest) (first :: outcomes) out.1 := by
  induction left generalizing u v k kind held first begun rest outcomes with
  | zero =>
    obtain ⟨between, hhonest', -⟩ := honestly_append_iff.1 hhonest
    obtain ⟨hok, herror⟩ := hbegun.of_safe hs hstart hfits hsize hlong hhonest'
    rw [faults_append] at hfaults
    cases hrest with
    | done =>
      rw [List.append_nil]
      exact .of_ok hbegun.question_ne_discard (hok _ rfl)
    | spent =>
      have hspent := (herror _ rfl).spent
      omega
  | succ left ih =>
    obtain ⟨between, hhonest', hhonest''⟩ := honestly_append_iff.1 hhonest
    obtain ⟨hok, herror⟩ := hbegun.of_safe hs hstart hfits hsize hlong hhonest'
    rw [faults_append] at hfaults
    cases hrest with
    | done =>
      rw [List.append_nil]
      exact .of_ok hbegun.question_ne_discard (hok _ rfl)
    | hopeless hfinal =>
      have hresumable := (herror _ rfl).resumable
      rw [hfinal] at hresumable
      cases hresumable
    | again _ hattempt hrest =>
      obtain ⟨hresumable, ⟨j, hs'⟩, hspent⟩ := herror _ rfl
      simp only at hspent
      rw [faults_paused] at hfaults
      have hwell := ih hattempt hrest hs' nofun hhonest''.of_paused (by omega)
      rw [← List.singleton_append, ← List.append_assoc]
      refine hwell.cons (List.forall_mem_append.2 ⟨hbegun.question_ne_discard, ?_⟩) hresumable
      exact List.forall_mem_singleton.2 nofun

/-- Over an honest session that fits the file and holds some of its parts, and with a stream that is
long enough: whatever is answered, the first attempt and trying again come to an end. If there are
no more faults, failing answers and failing reads together, than further attempts are allowed, the
end is the committed file, the session is not discarded, and no attempt fails for a reason that
another attempt could not help. -/
theorem survives_bounded_faults {fileSize : UInt64} (hfits : session.Fits fileSize)
    {reader : Reader} (hlong : fileSize.toNat ≤ reader.content.length)
    (hheld : ∀ p ∈ held, p.OnGrid fileSize.toNat session.partSize.toNat) (policy : Policy)
    (kind : Attempt) :
    (∀ answer : List (Transfer.Event ε) → (call : TransferCall) → call.Answer ε, ∃ events out,
      History (policy.pursue session kind (.ofReader reader fileSize)) events out ∧
      Follows answer [] events) ∧
    ∀ (events : List (Transfer.Event ε)) (result : Except (TransferError ε) RemoteFile)
      (w : Uploader) (held' : List Part),
      History (policy.pursue session kind (.ofReader reader fileSize)) events (result, w) →
      Honestly held events held' →
      faults events + reader.failures ≤ policy.maxAttempts →
      (∃ file digest parts, result = .ok file ∧ .committed digest parts (.ok file) ∈ events) ∧
      (∀ answer, .discarded answer ∉ events) ∧
      ∀ begun first v rest outcomes, events = begun ++ rest →
        Attempted session (.ofReader reader fileSize) kind begun (first, v) →
        Persisted policy session policy.maxAttempts first v rest outcomes (result, w) →
        ∀ e, .error e ∈ first :: outcomes → e.isResumable = true := by
  refine ⟨fun answer => exists_history answer [] _, ?_⟩
  intro events result w held' hhistory hhonest hfaults
  have hsteady : Steady (hfits.layout reader) 0 (.ofReader reader fileSize) held :=
    steady_ofReader (hfits.layout reader) hheld
  have hwell : ∀ begun first v rest outcomes, events = begun ++ rest →
      Attempted session (.ofReader reader fileSize) kind begun (first, v) →
      Persisted policy session policy.maxAttempts first v rest outcomes (result, w) →
      EndsWell events (first :: outcomes) result := by
    rintro begun first v rest outcomes rfl hbegun hrest
    exact endsWell_of_safe hbegun hrest hsteady.safe (fun _ => hsteady) hfits rfl hlong hhonest
      (Nat.add_comm _ _ ▸ hfaults)
  obtain ⟨begun, first, v, rest, outcomes, hsplit, hbegun, hrest⟩ := history_pursue_iff.1 hhistory
  have hend := hwell begun first v rest outcomes hsplit hbegun hrest
  refine ⟨hend.committed, fun answer hanswer => hend.pursued _ hanswer rfl, ?_⟩
  intro begun first v rest outcomes hsplit hbegun hrest
  exact (hwell begun first v rest outcomes hsplit hbegun hrest).resumable

/-- The only part of a file arrives, and the answer does not. The one further attempt that is
allowed finds the part listed and commits. -/
theorem survives_lost_answer :
    let session : Session := ⟨"one", 1, 1⟩
    let reader : Reader := .ofBytes [7]
    let policy : Policy := ⟨1, ⟨0⟩⟩
    session.Fits 1 ∧ ∃ (events : List (Transfer.Event ClientError)) (w : Uploader)
        (file : RemoteFile) (held' : List Part),
      History (policy.pursue session .start (.ofReader reader 1)) events (.ok file, w) ∧
      Honestly [] events held' ∧ faults events = 1 ∧ reader.failures = 0 ∧
      (∃ digest parts, .committed digest parts (.ok file) ∈ events) ∧
      ∀ answer, .discarded answer ∉ events := by
  intro session reader policy
  let lost : ClientError := .http .request
  let record : Part := ⟨"a", 0, 1, ""⟩
  let file : RemoteFile := ⟨"f", "file", "data.bin", none, "", none, none, none⟩
  have hfits : session.Fits 1 := by decide
  have hcheck := Geometry.check_eq_ok_iff.2 hfits
  let read : Uploader :=
    { ofReader reader 1 with content := some ⟨⟨[.data [] none], [1]⟩, 1, [], false⟩ }
  obtain ⟨u, n, hheld, hsize, hslot, hactive⟩ : ∃ (u : Uploader) (n : UInt64),
      Turn session (ofReader reader 1) [.sent [7] 0 n (.error (.session lost))]
        (.error (.session lost), u) ∧
      u.fileSize = 1 ∧ u.slot = .holding ⟨0, [7]⟩ ∧ u.aborted = false :=
    ⟨_, _, @Turn.held _ _ _ ⟨0, [7]⟩ _ read (by cbv) (by cbv), by cbv, by cbv, by cbv⟩
  have hcommitted : (u.adopt [record]).committed = [record] := by
    simp [record, adopt, hslot, Slot.offset?, Slot.part?, reconcile, Reconciliation.byOffset,
      Reconciliation.firstOfEach, Reconciliation.run]
  have hall : session.totalParts.toNat ≤ (u.adopt [record]).committed.length := by
    rw [hcommitted]
    decide
  have hfinish :=
    @Finish.committed ClientError _ _ _ file _ (hsize.symm ▸ hcheck) (.of_complete hall)
  have hresumable : (TransferError.session lost).isResumable = true := rfl
  have hstopped : Finish session (ofReader reader 1) _ _ := .stopped hcheck (.failed hheld)
  have htakes : Takes [7] 0 [] [record] :=
    ⟨fun _ h => absurd h List.not_mem_nil, ⟨record, .head _, by decide⟩,
      List.forall_mem_singleton.2 (.inr (by decide))⟩
  obtain ⟨events, w, hcourse, hhonest, hfaults⟩ : ∃ events w,
      History (policy.pursue session .start (.ofReader reader 1)) events (.ok file, w) ∧
      Honestly [] events [record] ∧ faults events = 1 := by
    refine ⟨_, _, history_pursue_iff.2 ⟨_, _, _, _, _, rfl, .start rfl hstopped,
      @Persisted.again _ _ policy _ _ _ _ _ _ _ _ _ _ hresumable (.resume hactive hfinish) .done⟩,
      ?_, rfl⟩
    exact .cons (.lost htakes) <| .cons .paused <| .cons (.listed (.refl _)) <|
      .cons .reported <| .cons .committed <| .cons .reported .nil
  obtain ⟨⟨file', digest, parts, hfile, hmem⟩, hdiscard, -⟩ :=
    (survives_bounded_faults hfits (by decide) (List.forall_mem_nil _)
      policy .start).2 events _ w [record] hcourse hhonest (Nat.le_of_eq hfaults)
  cases hfile
  exact ⟨hfits, events, w, file, [record], hcourse, hhonest, hfaults, rfl, ⟨digest, parts, hmem⟩,
    hdiscard⟩

end ResumableUpload.Policy
