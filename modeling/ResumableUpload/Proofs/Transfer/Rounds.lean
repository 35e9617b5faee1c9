import ResumableUpload.Proofs.Transfer.InStep
import ResumableUpload.Proofs.Transfer.Listing

/-!
# The order of one attempt

An attempt asks a session for things in a fixed order: for its parts, if the attempt is a
resumption, then to take parts at rising offsets, and then, at most once, to commit
(`attempt_is_orderly`). Nothing is assumed of the state, nor of what the session lists or answers.

The loop of an attempt goes on while records are missing (`Rounds`). It comes to an end because a
round that does not fail counts exactly one record (`Turn.committed_eq`), so that as many rounds as
there are records missing are enough, and the loop that counts its turns beforehand is the same
(`turns_iff_rounds`). The offsets rise because each round sends nothing, or the part at the offset
that the number of records says.
-/

namespace ResumableUpload

variable {ε : Type}

/-- The offset of a part that is sent. -/
def Transfer.Event.sentOffset? : Transfer.Event ε → Option Nat
  | ⟨.sendPart _ offset _, _⟩ => some offset
  | _ => none

/-- The offsets of the parts that are sent, in the order in which they are sent. -/
def sentOffsets (events : List (Transfer.Event ε)) : List Nat := events.filterMap (·.sentOffset?)

/-- What the session is asked for. Reports and pauses are not among it. -/
def calls (events : List (Transfer.Event ε)) : List (Transfer.Event ε) :=
  events.filter (·.question.isOfSession)

theorem sentOffsets_append (before after : List (Transfer.Event ε)) :
    sentOffsets (before ++ after) = sentOffsets before ++ sentOffsets after :=
  List.filterMap_append

theorem calls_append (before after : List (Transfer.Event ε)) :
    calls (before ++ after) = calls before ++ calls after :=
  List.filter_append before after

namespace Uploader

open Program (History Follows exists_history)

variable {session : Session} {u v w : Uploader} {events : List (Transfer.Event ε)}

/-! ## One round -/

/-- A turn sends nothing, or the next part, and that only if no record of it is known. -/
theorem Turn.sentOffsets_eq {out : Except (TransferError ε) Unit × Uploader}
    (h : Turn session u events out) :
    sentOffsets events = [] ∨
      sentOffsets events = [u.committed.length * session.partSize.toNat] ∧
        u.known[u.committed.length * session.partSize.toNat]? = none := by
  have hsought := next_sought (ε := ε) u session.partSize.toNat
  have hnone : ∀ {part : InFlight} {v : Uploader},
      u.next (ε := ε) session.partSize.toNat = (.ok (.atHand part), v) →
      (v.hash part).known[part.offset]? = none →
      part.offset = u.committed.length * session.partSize.toNat ∧
        u.known[u.committed.length * session.partSize.toNat]? = none := by
    intro part v hnext hknown
    rw [hnext] at hsought
    obtain ⟨hoffset, -⟩ := hsought.of_atHand
    rw [known_hash, hsought.frame, hoffset] at hknown
    exact ⟨hoffset, hknown⟩
  cases h with
  | failed => exact .inl rfl
  | recalled => exact .inl rfl
  | reused => exact .inl rfl
  | stored hnext hknown =>
    obtain ⟨hoffset, hknown⟩ := hnone hnext hknown
    exact .inr ⟨congrArg (· :: []) hoffset, hknown⟩
  | held hnext hknown =>
    obtain ⟨hoffset, hknown⟩ := hnone hnext hknown
    exact .inr ⟨congrArg (· :: []) hoffset, hknown⟩

/-- A turn sends one part at most. -/
theorem Turn.sentOffsets_pairwise {out : Except (TransferError ε) Unit × Uploader}
    (h : Turn session u events out) : (sentOffsets events).Pairwise (· < ·) := by
  rcases h.sentOffsets_eq with hnil | ⟨hone, -⟩
  · rw [hnil]
    exact .nil
  · rw [hone]
    exact List.pairwise_singleton _ _

/-- What a turn sends is the next part. -/
theorem Turn.of_sent {out : Except (TransferError ε) Unit × Uploader}
    (h : Turn session u events out) {offset : Nat} (hmem : offset ∈ sentOffsets events) :
    offset = u.committed.length * session.partSize.toNat ∧ u.known[offset]? = none := by
  rcases h.sentOffsets_eq with hnil | ⟨hone, hknown⟩
  · rw [hnil] at hmem
    cases hmem
  · rw [hone] at hmem
    cases List.mem_singleton.1 hmem
    exact ⟨rfl, hknown⟩

/-! ## The loop -/

/-- The loop: so long as records are missing, one round after the other, each with what it asks; a
round that fails is the last. -/
inductive Rounds (session : Session) :
    Uploader → List (List (Transfer.Event ε)) → Except (TransferError ε) Unit × Uploader → Prop
  | done {u : Uploader} (hcomplete : session.totalParts.toNat ≤ u.committed.length) :
      Rounds session u [] (.ok (), u)
  | failed {u w : Uploader} {events : List (Transfer.Event ε)} {e : TransferError ε}
      (hmissing : u.committed.length < session.totalParts.toNat)
      (hturn : Turn session u events (.error e, w)) : Rounds session u [events] (.error e, w)
  | more {u v : Uploader} {first : List (Transfer.Event ε)}
      {rest : List (List (Transfer.Event ε))} {out : Except (TransferError ε) Unit × Uploader}
      (hmissing : u.committed.length < session.totalParts.toNat)
      (hturn : Turn session u first (.ok (), v)) (hrest : Rounds session v rest out) :
      Rounds session u (first :: rest) out

/-- There are no more rounds than records missing. -/
theorem Rounds.length_le {rounds : List (List (Transfer.Event ε))}
    {out : Except (TransferError ε) Unit × Uploader} (h : Rounds session u rounds out) :
    rounds.length ≤ session.totalParts.toNat - u.committed.length := by
  induction h with
  | done => exact Nat.zero_le _
  | failed hmissing =>
    rw [List.length_singleton]
    omega
  | more hmissing hturn _ ih =>
    have := hturn.length_committed
    rw [List.length_cons]
    omega

/-- To go on while records are missing is to take as many turns as records are missing. -/
theorem turns_iff_rounds {out : Except (TransferError ε) Unit × Uploader} :
    Turns session (session.totalParts.toNat - u.committed.length) u events out ↔
      ∃ rounds, events = rounds.flatten ∧ Rounds session u rounds out := by
  constructor
  · intro h
    generalize hcount : session.totalParts.toNat - u.committed.length = count at h
    induction h with
    | done => exact ⟨[], rfl, .done (by omega)⟩
    | @failed _ _ _ events _ hturn =>
      exact ⟨[events], List.flatten_singleton.symm, .failed (by omega) hturn⟩
    | @more _ _ _ first _ _ hturn _ ih =>
      have := hturn.length_committed
      obtain ⟨rounds, rfl, hrounds⟩ := ih (by omega)
      exact ⟨first :: rounds, rfl, .more (by omega) hturn hrounds⟩
  · rintro ⟨rounds, rfl, h⟩
    induction h with
    | done hcomplete => exact .of_complete hcomplete
    | failed hmissing hturn =>
      rw [List.flatten_singleton, ← Nat.succ_pred_eq_of_pos (Nat.sub_pos_of_lt hmissing)]
      exact .failed hturn
    | @more u v _ _ _ hmissing hturn _ ih =>
      have hcount : session.totalParts.toNat - u.committed.length =
          session.totalParts.toNat - v.committed.length + 1 := by
        have := hturn.length_committed
        omega
      rw [hcount]
      exact .more hturn ih

/-- The offsets that the loop sends rise, each is that of a part that is missing, and of none of
them a record is known when the loop begins. -/
theorem Turns.sentOffsets_rise {count : Nat} {out : Except (TransferError ε) Unit × Uploader}
    (h : Turns session count u events out) (hpos : 0 < session.partSize.toNat) :
    (sentOffsets events).Pairwise (· < ·) ∧ ∀ offset ∈ sentOffsets events,
      (∃ i, u.committed.length ≤ i ∧ i < u.committed.length + count ∧
        offset = i * session.partSize.toNat) ∧ u.known[offset]? = none := by
  induction h with
  | done => exact ⟨.nil, nofun⟩
  | failed hturn =>
    refine ⟨hturn.sentOffsets_pairwise, fun offset hmem => ?_⟩
    obtain ⟨hoffset, hknown⟩ := hturn.of_sent hmem
    exact ⟨⟨_, Nat.le_refl _, by omega, hoffset⟩, hknown⟩
  | @more count u v first rest out hturn _ ih =>
    obtain ⟨hrise, hrest⟩ := ih
    have hlength := hturn.length_committed
    rw [sentOffsets_append]
    refine ⟨List.pairwise_append.2 ⟨hturn.sentOffsets_pairwise, hrise, fun a ha b hb => ?_⟩,
      fun offset hmem => ?_⟩
    · obtain ⟨rfl, -⟩ := hturn.of_sent ha
      obtain ⟨⟨i, hi, -, rfl⟩, -⟩ := hrest b hb
      exact Nat.mul_lt_mul_of_pos_right (by omega) hpos
    · rcases List.mem_append.1 hmem with hmem | hmem
      · obtain ⟨hoffset, hknown⟩ := hturn.of_sent hmem
        exact ⟨⟨_, Nat.le_refl _, by omega, hoffset⟩, hknown⟩
      · obtain ⟨⟨i, hi, hi', rfl⟩, hnone⟩ := hrest offset hmem
        obtain ⟨record, -, hknown⟩ := hturn.committed_eq
        refine ⟨⟨i, by omega, by omega, rfl⟩, ?_⟩
        rw [hknown, PartIndex.getElem?_note] at hnone
        split at hnone
        · cases hnone
        · exact hnone

/-! ## The attempt -/

/-- The loop comes first, if the session fits, and then the commit, if there is one. -/
theorem Finish.split {out : Except (TransferError ε) RemoteFile × Uploader}
    (h : Finish session u events out) :
    ∃ loop closing, events = loop ++ closing ∧
      (loop = [] ∨ 0 < session.partSize.toNat ∧ ∃ last,
        Turns session (session.totalParts.toNat - u.committed.length) u loop last) ∧
      sentOffsets closing = [] ∧ (calls closing = [] ∨
        ∃ digest parts answer, calls closing = [.committed digest parts answer]) := by
  cases h with
  | misfit => exact ⟨[], [], rfl, .inl rfl, rfl, .inl rfl⟩
  | stopped hcheck hturns =>
    exact ⟨events, [], (List.append_nil _).symm,
      .inr ⟨(Geometry.check_eq_ok_iff.1 hcheck).1, _, hturns⟩, rfl, .inl rfl⟩
  | refused hcheck hturns =>
    exact ⟨_, _, rfl, .inr ⟨(Geometry.check_eq_ok_iff.1 hcheck).1, _, hturns⟩, rfl,
      .inr ⟨_, _, _, rfl⟩⟩
  | committed hcheck hturns =>
    exact ⟨_, _, rfl, .inr ⟨(Geometry.check_eq_ok_iff.1 hcheck).1, _, hturns⟩, rfl,
      .inr ⟨_, _, _, rfl⟩⟩

/-- The offsets that the loop and the commit send are those of the loop. -/
theorem Finish.sentOffsets_rise {out : Except (TransferError ε) RemoteFile × Uploader}
    (h : Finish session u events out) :
    (sentOffsets events).Pairwise (· < ·) ∧ ∀ offset ∈ sentOffsets events,
      (∃ i < session.totalParts.toNat, offset = i * session.partSize.toNat) ∧
        u.known[offset]? = none := by
  obtain ⟨loop, closing, rfl, hloop, hclosing, -⟩ := h.split
  rw [sentOffsets_append, hclosing, List.append_nil]
  rcases hloop with rfl | ⟨hpos, last, hturns⟩
  · exact ⟨.nil, nofun⟩
  · obtain ⟨hrise, hmissing⟩ := hturns.sentOffsets_rise hpos
    refine ⟨hrise, fun offset hmem => ?_⟩
    obtain ⟨⟨i, _, _, hoffset⟩, hknown⟩ := hmissing offset hmem
    exact ⟨⟨i, by omega, hoffset⟩, hknown⟩

/-- The loop is made of rounds, of which there are no more than the session has parts. -/
theorem Finish.rounds {out : Except (TransferError ε) RemoteFile × Uploader}
    (h : Finish session u events out) :
    ∃ rounds closing, events = rounds.flatten ++ closing ∧
      rounds.length ≤ session.totalParts.toNat ∧
      (rounds = [] ∨ ∃ last, Rounds session u rounds last) ∧
      (∀ event ∈ rounds.flatten, event.question.IsOfLoop) ∧
      (calls closing = [] ∨
        ∃ digest parts answer, calls closing = [.committed digest parts answer]) := by
  obtain ⟨loop, closing, rfl, rfl | ⟨-, last, hturns⟩, -, hcalls⟩ := h.split
  · exact ⟨[], closing, rfl, Nat.zero_le _, .inl rfl, nofun, hcalls⟩
  · have hloop := hturns.question_isOfLoop
    obtain ⟨rounds, rfl, hrounds⟩ := turns_iff_rounds.1 hturns
    exact ⟨rounds, closing, rfl, Nat.le_trans hrounds.length_le (Nat.sub_le _ _),
      .inr ⟨last, hrounds⟩, hloop, hcalls⟩

/-- Neither the loop nor the commit asks for a listing. -/
theorem Finish.listed_notMem {out : Except (TransferError ε) RemoteFile × Uploader}
    (h : Finish session u events out) (answer : Except (TransferError ε) (List Part)) :
    .listed answer ∉ events := by
  intro hmem
  rcases h.asked _ hmem with hloop | ⟨⟨_, hcommit⟩, -⟩
  · exact hloop
  · cases hcommit

/-- Whatever a session lists, takes or refuses, an attempt of an upload that has not been given up
comes to an end. The parts that it sends begin at rising multiples of the part size, and none of
them at an offset that has been listed to it. It asks for the listing once, if it is a resumption,
and else not at all; then come the rounds of the loop, no more than the session has parts; and then
the commit, if it gets there. Each round fails or counts exactly one record, from whatever state. -/
theorem attempt_is_orderly (hactive : u.aborted = false) (session : Session) (kind : Attempt) :
    (∀ answer : List (Transfer.Event ε) → (call : TransferCall) → call.Answer ε, ∃ events out,
      History (u.attempt session kind) events out ∧ Follows answer [] events) ∧
    (∀ (events : List (Transfer.Event ε)) (out : Except (TransferError ε) RemoteFile × Uploader),
      History (u.attempt session kind) events out →
      (sentOffsets events).Pairwise (· < ·) ∧
      (∀ offset ∈ sentOffsets events,
        ∃ i < session.totalParts.toNat, offset = i * session.partSize.toNat) ∧
      (∀ listing, .listed (.ok listing) ∈ events →
        ∀ p ∈ listing, p.offset.toNat ∉ sentOffsets events) ∧
      ∃ listings rounds closing, events = listings ++ rounds.flatten ++ closing ∧
        (kind = .start → listings = []) ∧
        (kind = .resume → ∃ answer, listings = [.listed answer]) ∧
        rounds.length ≤ session.totalParts.toNat ∧
        (rounds = [] ∨ ∃ last, Rounds session (u.entering kind events) rounds last) ∧
        (∀ event ∈ rounds.flatten, event.question.IsOfLoop) ∧
        (calls closing = [] ∨
          ∃ digest parts answer, calls closing = [.committed digest parts answer])) ∧
    ∀ (v : Uploader) (round : List (Transfer.Event ε))
      (out : Except (TransferError ε) Unit × Uploader),
      History (v.accountForNext session) round out →
      (∃ e, out.1 = .error e) ∨
        ∃ record, out.1 = .ok () ∧ out.2.committed = v.committed ++ [record] := by
  refine ⟨fun answer => exists_history answer [] _, ?_, ?_⟩
  · intro events out h
    cases history_attempt_iff.1 h with
    | aborted _ haborted =>
      rw [hactive] at haborted
      cases haborted
    | start _ hfinish =>
      obtain ⟨hrise, hsent⟩ := hfinish.sentOffsets_rise
      obtain ⟨rounds, closing, hevents, hrounds⟩ := hfinish.rounds
      exact ⟨hrise, fun offset hmem => (hsent offset hmem).1,
        fun _ hlisted => absurd hlisted (hfinish.listed_notMem _),
        [], rounds, closing, hevents, fun _ => rfl, nofun, hrounds⟩
    | unlisted =>
      refine ⟨.nil, nofun, fun listing hlisted => ?_, [.listed (.error _)], [], [], rfl, nofun,
        fun _ => ⟨_, rfl⟩, Nat.zero_le _, .inl rfl, nofun, .inl rfl⟩
      cases List.mem_singleton.1 hlisted
    | @resume listing events _ _ hfinish =>
      obtain ⟨hrise, hsent⟩ := hfinish.sentOffsets_rise
      obtain ⟨rounds, closing, rfl, hrounds⟩ := hfinish.rounds
      refine ⟨hrise, fun offset hmem => (hsent offset hmem).1, fun listing' hlisted p hp hmem => ?_,
        [.listed (.ok listing)], rounds, closing, rfl, nofun, fun _ => ⟨_, rfl⟩, hrounds⟩
      -- What is sent is not known, and what is listed is.
      rcases List.mem_cons.1 hlisted with hfirst | hlater
      · cases hfirst
        have hnone : (PartIndex.ofListing listing)[p.offset.toNat]? = none := (hsent _ hmem).2
        have hsome := PartIndex.isSome_getElem?_ofListing hp
        rw [hnone] at hsome
        cases hsome
      · exact hfinish.listed_notMem _ hlater
  · rintro v round ⟨e | ⟨⟩, w⟩ h
    · exact .inl ⟨e, rfl⟩
    · obtain ⟨record, hcommitted, -⟩ := (history_accountForNext_iff.1 h).committed_eq
      exact .inr ⟨record, rfl, hcommitted⟩

/-- Of two parts the second is listed. A resumption asks for the listing, sends the first part, and
that fails. It asks for nothing else. -/
theorem resumption_asks_twice :
    let session : Session := ⟨"two", 2, 1⟩
    let listed : Part := ⟨"b", 1, 1, ""⟩
    ∃ (events : List (Transfer.Event String)) (w : Uploader),
      History ((ofReader (.ofBytes [1, 2]) 2).attempt session .resume) events
        (.error (.session "reset"), w) ∧
      calls events = [.listed (.ok [listed]), .sent [1] 0 2 (.error (.session "reset"))] ∧
      listed.offset.toNat ∉ sentOffsets events := by
  intro session listed
  let u : Uploader := ofReader (.ofBytes [1, 2]) 2
  let read : Uploader :=
    { u.adopt [listed] with content := some ⟨⟨[.data [2] none], [1]⟩, 1, [], false⟩ }
  obtain ⟨w, fileSize, hfileSize, hturn⟩ : ∃ (w : Uploader) (fileSize : UInt64), fileSize = 2 ∧
      Turn session (u.adopt [listed]) [.sent [1] 0 fileSize (.error (.session "reset"))]
        (.error (.session "reset"), w) :=
    ⟨_, _, by cbv, @Turn.held _ _ _ ⟨0, [1]⟩ _ read (by cbv) (by cbv)⟩
  cases hfileSize
  have hcheck := Geometry.check_eq_ok_iff.2 (show session.Fits 2 by decide)
  have hturns : Turns session 2 (u.adopt [listed]) _ _ := .failed hturn
  have h : History (u.attempt session .resume) _ _ :=
    history_attempt_iff.2 (.resume rfl (.stopped hcheck hturns))
  obtain ⟨-, horder, -⟩ := attempt_is_orderly (ε := String) (u := u) rfl session .resume
  obtain ⟨-, -, hlisted, -⟩ := horder _ _ h
  exact ⟨_, w, h, rfl, hlisted _ List.mem_cons_self _ List.mem_cons_self⟩

end Uploader

end ResumableUpload
