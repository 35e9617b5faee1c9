import Mathlib.Data.List.Nodup
import ResumableUpload.Proofs.Transfer.Interrupted

/-!
# The order of a listing

A listing whose records have different offsets may come in any order. It is sorted before the
records that count are taken from it, so that these are the same (`byOffset_eq_of_perm`); whether
the part in flight has landed only depends on which offsets there are; and the index has one record
for each of them. So a resumption makes the same state of it, whatever state it is in
(`Uploader.adopt_eq_of_perm`).

What comes then is the same as well, if the session answers as before. Two runs over such a session
are compared by their traces (`Program.trace`): the same calls and reports, the same result and the
same state (`Uploader.resume_eq_of_perm`).
-/

namespace ResumableUpload

variable {ε : Type} {listing listing' : List Part}

/-- Of records with different offsets, the one found for an offset is the one that has it. -/
theorem find?_eq_some_iff_of_nodup (hdistinct : (listing.map (·.offset)).Nodup) {offset : Nat}
    {p : Part} : (listing.find? fun q => q.offset.toNat = offset) = some p ↔
      p ∈ listing ∧ p.offset.toNat = offset := by
  constructor
  · intro hfound
    have hoffset := List.find?_some hfound
    exact ⟨List.mem_of_find?_eq_some hfound, by simpa using hoffset⟩
  · rintro ⟨hp, rfl⟩
    obtain ⟨q, hq⟩ := Option.isSome_iff_exists.1
      (List.find?_isSome (p := fun q : Part => q.offset.toNat = p.offset.toNat).2
        ⟨p, hp, decide_eq_true rfl⟩)
    have hoffset : q.offset.toNat = p.offset.toNat := by simpa using List.find?_some hq
    rw [hq, List.inj_on_of_nodup_map hdistinct (List.mem_of_find?_eq_some hq) hp
      (UInt64.toNat_inj.1 hoffset)]

/-- Of records with different offsets, the one that is found does not depend on their order. -/
theorem find?_eq_of_perm (hperm : listing.Perm listing')
    (hdistinct : (listing.map (·.offset)).Nodup) (offset : Nat) :
    (listing.find? fun p => p.offset.toNat = offset) =
      listing'.find? fun p => p.offset.toNat = offset := by
  have hdistinct' : (listing'.map (·.offset)).Nodup := (hperm.map _).nodup_iff.1 hdistinct
  refine Option.ext fun p => ?_
  rw [find?_eq_some_iff_of_nodup hdistinct, find?_eq_some_iff_of_nodup hdistinct', hperm.mem_iff]

namespace Reconciliation

/-- Sorting brings records with different offsets into one order. -/
theorem byOffset_eq_of_perm (hperm : listing.Perm listing')
    (hdistinct : (listing.map (·.offset)).Nodup) : byOffset listing = byOffset listing' := by
  have hsorted : (byOffset listing).Perm (byOffset listing') :=
    (List.mergeSort_perm listing _).trans (hperm.trans (List.mergeSort_perm listing' _).symm)
  refine hsorted.eq_of_pairwise (fun p q hp hq hle hge => ?_) (pairwise_byOffset listing)
    (pairwise_byOffset listing')
  exact List.inj_on_of_nodup_map hdistinct (List.mem_mergeSort.1 hp)
    (hperm.mem_iff.2 (List.mem_mergeSort.1 hq)) (UInt64.le_antisymm hle hge)

end Reconciliation

/-- Reconciling does not depend on the order of records with different offsets. -/
theorem reconcile_eq_of_perm (hperm : listing.Perm listing')
    (hdistinct : (listing.map (·.offset)).Nodup) (inFlight : Option Nat) :
    reconcile inFlight listing = reconcile inFlight listing' := by
  cases inFlight with
  | none => rfl
  | some limit =>
    rw [reconcile, reconcile, Reconciliation.byOffset_eq_of_perm hperm hdistinct,
      hperm.any_eq]

/-- Neither does the index. -/
theorem PartIndex.ofListing_eq_of_perm (hperm : listing.Perm listing')
    (hdistinct : (listing.map (·.offset)).Nodup) : ofListing listing = ofListing listing' := by
  refine Std.ExtTreeMap.ext_getElem? fun offset => ?_
  rw [getElem?_ofListing, getElem?_ofListing]
  refine find?_eq_of_perm (listing.reverse_perm.trans (hperm.trans listing'.reverse_perm.symm)) ?_
    offset
  rw [List.map_reverse]
  exact List.nodup_reverse.2 hdistinct

namespace Uploader

open Program (trace)

/-- Whatever its state, an upload makes the same of a listing in any order. -/
theorem adopt_eq_of_perm (u : Uploader) (hperm : listing.Perm listing')
    (hdistinct : (listing.map (·.offset)).Nodup) : u.adopt listing = u.adopt listing' := by
  rw [adopt, adopt, reconcile_eq_of_perm hperm hdistinct,
    PartIndex.ofListing_eq_of_perm hperm hdistinct]

/-! ## Two resumptions -/

/-- A session that begins with a listing. What it answers afterwards depends on the calls so far. -/
def answering (listing : List Part)
    (answer : List TransferCall → (call : TransferCall) → call.Answer ε)
    (before : List (Transfer.Event ε)) : (call : TransferCall) → call.Answer ε
  | .listParts =>
    if before.isEmpty then .ok listing else answer (before.map (·.question)) .listParts
  | call => answer (before.map (·.question)) call

theorem answering_of_ne_nil {before : List (Transfer.Event ε)} (hbegun : before ≠ [])
    (answer : List TransferCall → (call : TransferCall) → call.Answer ε) (call : TransferCall) :
    answering listing answer before call = answer (before.map (·.question)) call := by
  cases call with
  | listParts => exact if_neg (by rwa [List.isEmpty_iff])
  | _ => rfl

/-- After the listing, two sessions that answer alike are not told apart. -/
theorem trace_answering_eq {α : Type} (listing listing' : List Part)
    {before before' : List (Transfer.Event ε)}
    (hcalls : before.map (·.question) = before'.map (·.question)) (hbegun : before ≠ [])
    (answer : List TransferCall → (call : TransferCall) → call.Answer ε)
    (p : Program (Transfer ε) α) :
    trace (answering listing answer) before p = trace (answering listing' answer) before' p := by
  induction p generalizing before before' with
  | done value => rfl
  | ask call next ih =>
    have hbegun' : before' ≠ [] := by
      rintro rfl
      exact hbegun (List.map_eq_nil_iff.1 hcalls)
    have hsame : answering listing answer before call = answering listing' answer before' call := by
      rw [answering_of_ne_nil hbegun, answering_of_ne_nil hbegun', hcalls]
    let event : Transfer.Event ε := ⟨call, answering listing' answer before' call⟩
    have hgrown : (before ++ [event]).map (·.question) = (before' ++ [event]).map (·.question) := by
      rw [List.map_append, List.map_append, hcalls]
    have hrest := ih event.answer hgrown
      (List.append_ne_nil_of_right_ne_nil _ (List.cons_ne_nil _ _))
    simp only [trace, hsame]
    exact congrArg (fun after => (event :: after.1, after.2)) hrest
  | loop _ memory => exact memory.elim

/-- A resumption asks for the listing, and goes on with what it makes of it. -/
theorem trace_resume {u : Uploader} (hactive : u.aborted = false) (session : Session)
    (listing : List Part)
    (answer : List TransferCall → (call : TransferCall) → call.Answer ε) :
    trace (answering listing answer) [] (u.resume session) =
      let after := trace (answering listing answer) [Transfer.Event.listed (.ok listing)]
        ((u.adopt listing).finish session)
      (Transfer.Event.listed (.ok listing) :: after.1, after.2) := by
  rw [resume, if_neg (by rw [hactive]; exact Bool.false_ne_true)]
  rfl

/-- Whatever state an upload is in: two resumptions that are told the same records, of different
offsets, in two orders, and are otherwise answered alike, make the same calls with the same
arguments and the same reports, one after the other, and end with the same result in the same
state. -/
theorem resume_eq_of_perm (u : Uploader) (session : Session) (hperm : listing.Perm listing')
    (hdistinct : (listing.map (·.offset)).Nodup)
    (answer : List TransferCall → (call : TransferCall) → call.Answer ε) :
    (trace (answering listing answer) [] (u.resume session)).1.map (·.question) =
        (trace (answering listing' answer) [] (u.resume session)).1.map (·.question) ∧
      (trace (answering listing answer) [] (u.resume session)).2 =
        (trace (answering listing' answer) [] (u.resume session)).2 := by
  cases haborted : u.aborted with
  | true =>
    rw [resume, if_pos haborted]
    exact ⟨rfl, rfl⟩
  | false =>
    -- After the listing it is one program on both sides.
    have hcalls : [Transfer.Event.listed (ε := ε) (.ok listing)].map (·.question) =
        [Transfer.Event.listed (.ok listing')].map (·.question) := rfl
    have hafter := trace_answering_eq listing listing' hcalls (List.cons_ne_nil _ _) answer
      ((u.adopt listing).finish session)
    rw [trace_resume haborted, trace_resume haborted, ← u.adopt_eq_of_perm hperm hdistinct,
      hafter]
    exact ⟨rfl, rfl⟩

/-- The first of two parts is stored, and sending the second fails. After a listing of both, in
whichever order, the resumption commits them in the order of the parts. -/
theorem resumes_alike_of_two_orders :
    let session : Session := ⟨"two", 2, 1⟩
    let x : Part := ⟨"x", 0, 1, ""⟩
    let z : Part := ⟨"z", 1, 1, ""⟩
    let answer : List TransferCall → (call : TransferCall) → call.Answer String
      | _, .listParts => .error (.session "reset")
      | _, .sendPart _ _ _ => .error (.session "reset")
      | _, .commit _ _ => .error (.session "reset")
      | _, .discard => .ok true
      | _, .report _ => ()
      | _, .pause _ => ()
    [x, z].Perm [z, x] ∧ ([x, z].map (·.offset)).Nodup ∧
      ∃ (earlier : List (Transfer.Event String)) (u w : Uploader) (progress : Progress)
        (digest : Sha1.Digest),
      Program.History (play session [.attempt .start] (.ofReader (.ofBytes [1, 2]) 2)) earlier u ∧
      u.slot = .holding ⟨1, [2]⟩ ∧
      ((trace (answering [x, z] answer) [] (u.resume session)).1.map (·.question) =
          [.listParts, .report progress, .commit digest [x, z]] ∧
        (trace (answering [z, x] answer) [] (u.resume session)).1.map (·.question) =
          [.listParts, .report progress, .commit digest [x, z]]) ∧
      (trace (answering [x, z] answer) [] (u.resume session)).2 = (.error (.session "reset"), w) ∧
      (trace (answering [z, x] answer) [] (u.resume session)).2 =
        (.error (.session "reset"), w) := by
  intro session x z answer
  have hperm : [x, z].Perm [z, x] := .swap z x []
  have hdistinct : ([x, z].map (·.offset)).Nodup := by decide
  have hfits : session.Fits 2 := by decide
  have hcheck := Geometry.check_eq_ok_iff.2 hfits
  obtain ⟨u, hstart, hu⟩ := exists_interrupted hfits [1] [2] [] x (.session "reset") rfl
    (List.cons_ne_nil _ _) rfl (by decide)
  have hplayed : Played session [.attempt .start] (ofReader (.ofBytes [1, 2]) 2) _ u :=
    .cons (.attempt hstart) (.nil u)
  have hslot : u.slot = .holding ⟨1, [2]⟩ := hu.slot_eq
  let w : Uploader := u.adopt [x, z]
  have hcommitted : w.committed = [x, z] := by
    simp [w, x, z, adopt, hslot, Slot.offset?, Slot.part?, reconcile, Reconciliation.byOffset,
      List.mergeSort, Reconciliation.firstOfEach, Reconciliation.run, Part.stop]
  have hall : session.totalParts.toNat ≤ w.committed.length := by
    rw [hcommitted]
    decide
  have hresume := history_attempt_iff.2 (.resume hu.active
    (.refused (e := .session "reset") (hu.fileSize_eq.symm ▸ hcheck) (.of_complete hall)))
  rw [hcommitted] at hresume
  have htrace : trace (answering [x, z] answer) [] (u.resume session) = _ :=
    Program.trace_eq_iff.2 ⟨hresume, rfl, rfl, rfl, trivial⟩
  obtain ⟨hcalls, hout⟩ := u.resume_eq_of_perm session hperm hdistinct answer
  refine ⟨hperm, hdistinct, _, u, w, w.progress session .committing, w.digest.finish,
    history_play_iff.2 hplayed, hslot, ⟨?_, hcalls.symm.trans ?_⟩, ?_, hout.symm.trans ?_⟩
  · rw [htrace]
    rfl
  · rw [htrace]
    rfl
  · rw [htrace]
  · rw [htrace]

end Uploader
end ResumableUpload
