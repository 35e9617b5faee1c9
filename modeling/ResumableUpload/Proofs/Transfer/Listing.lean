import Mathlib.Data.List.Induction
import ResumableUpload.Proofs.Transfer.Layout
import ResumableUpload.Transfer.Uploader

/-!
# What an upload makes of a listing

A listing goes two ways: into the index of known records (`PartIndex.ofListing`), and into the
records that count as committed (`reconcile`). Both hold records of the listing only, whatever it
looks like. Of records with one offset the index holds the last (`PartIndex.getElem?_ofListing`),
and the first counts as committed (`find?_of_mem_reconcile`). If its records are on the grid, those
that count as committed cover the first parts of the file, and they go no further than the part in
flight; they go beyond its offset only if that part has landed (`reconcile_length_le`).
-/

namespace ResumableUpload

namespace PartIndex

variable {listing : List Part} {p : Part} {offset : Nat}

/-- A record replaces the one of its offset and no other. -/
theorem getElem?_note (index : PartIndex) (part : Part) (offset : Nat) :
    (index.note part)[offset]? =
      if part.offset.toNat = offset then some part else index[offset]? := by
  rw [note, Std.ExtTreeMap.getElem?_insert]
  simp only [Nat.compare_eq_eq]

/-- Of a list with records of one offset, the index holds the last. -/
theorem getElem?_ofListing (listing : List Part) (offset : Nat) :
    (ofListing listing)[offset]? = listing.reverse.find? fun p => p.offset.toNat = offset := by
  induction listing using List.reverseRecOn with
  | nil => exact Std.ExtTreeMap.getElem?_empty
  | append_singleton before p ih =>
    rw [ofListing, List.foldl_append, List.foldl_cons, List.foldl_nil, getElem?_note,
      List.reverse_append, List.reverse_singleton, List.singleton_append, List.find?_cons]
    by_cases hoffset : p.offset.toNat = offset
    · simp only [hoffset, if_true, decide_true]
    · simp only [hoffset, if_false, decide_false]
      exact ih

/-- A record of the index is listed, under its own offset. -/
theorem mem_of_getElem?_ofListing (h : (ofListing listing)[offset]? = some p) :
    p ∈ listing ∧ p.offset.toNat = offset := by
  rw [getElem?_ofListing] at h
  have hoffset := List.find?_some h
  exact ⟨List.mem_reverse.1 (List.mem_of_find?_eq_some h), by simpa using hoffset⟩

/-- Every listed offset is known. -/
theorem isSome_getElem?_ofListing (h : p ∈ listing) :
    (ofListing listing)[p.offset.toNat]?.isSome := by
  rw [getElem?_ofListing, List.find?_isSome]
  exact ⟨p, List.mem_reverse.2 h, decide_eq_true rfl⟩

/-- Every record of an index is under its own offset. -/
def Keyed (index : PartIndex) : Prop :=
  ∀ (offset : Nat) (p : Part), index[offset]? = some p → p.offset.toNat = offset

theorem Keyed.note {index : PartIndex} (h : index.Keyed) (p : Part) : (index.note p).Keyed := by
  intro offset q hq
  rw [getElem?_note] at hq
  split at hq
  next hoffset =>
    cases hq
    exact hoffset
  next => exact h offset q hq

theorem keyed_ofListing (listing : List Part) : (ofListing listing).Keyed := fun _ _ h =>
  (mem_of_getElem?_ofListing h).2

end PartIndex

namespace Reconciliation

variable {parts : List Part} {p : Part} {limit expected : Nat}

theorem mem_of_mem_firstOfEach (h : p ∈ firstOfEach parts) : p ∈ parts := by
  fun_induction firstOfEach parts with
  | case1 => exact h
  | case2 q rest hnil ih =>
    rcases List.mem_cons.1 h with rfl | hmem
    · exact List.mem_cons_self
    · cases hmem
  | case3 q rest first tail hfirst hsame ih =>
    rcases List.mem_cons.1 h with rfl | hmem
    · exact List.mem_cons_self
    · exact List.mem_cons_of_mem _ (ih (hfirst ▸ List.mem_cons_of_mem _ hmem))
  | case4 q rest first tail hfirst hother ih =>
    rcases List.mem_cons.1 h with rfl | hmem
    · exact List.mem_cons_self
    · exact List.mem_cons_of_mem _ (ih (hfirst ▸ hmem))

theorem offset_le_trans (p q r : Part) (hpq : decide (p.offset ≤ q.offset) = true)
    (hqr : decide (q.offset ≤ r.offset) = true) : decide (p.offset ≤ r.offset) = true :=
  decide_eq_true (UInt64.le_trans (of_decide_eq_true hpq) (of_decide_eq_true hqr))

theorem offset_le_total (p q : Part) :
    (decide (p.offset ≤ q.offset) || decide (q.offset ≤ p.offset)) = true := by
  rw [Bool.or_eq_true, decide_eq_true_iff, decide_eq_true_iff]
  exact UInt64.le_total p.offset q.offset

/-- Parts in the order of their offsets. -/
theorem pairwise_byOffset (listing : List Part) :
    (byOffset listing).Pairwise fun p q => p.offset ≤ q.offset :=
  (List.pairwise_mergeSort offset_le_trans offset_le_total listing).imp of_decide_eq_true

/-- Sorting leaves parts of one offset in the order in which they are listed. -/
theorem filter_byOffset (listing : List Part) (offset : Nat) :
    ((byOffset listing).filter fun p => p.offset.toNat = offset) =
      listing.filter fun p => p.offset.toNat = offset := by
  have hsame : (listing.filter fun p => p.offset.toNat = offset).Sublist (byOffset listing) := by
    refine List.sublist_mergeSort offset_le_trans offset_le_total ?_ List.filter_sublist
    refine List.pairwise_of_forall_mem_list fun p hp q hq => ?_
    have hp := of_decide_eq_true (List.mem_filter.1 hp).2
    have hq := of_decide_eq_true (List.mem_filter.1 hq).2
    exact decide_eq_true (UInt64.le_iff_toNat_le.2 (Nat.le_of_eq (hp.trans hq.symm)))
  have hfilter := hsame.filter fun p => p.offset.toNat = offset
  rw [List.filter_filter] at hfilter
  simp only [Bool.and_self] at hfilter
  exact (hfilter.eq_of_length
    ((List.mergeSort_perm listing _).filter _).length_eq.symm).symm

/-- One part for each offset is left, in order. -/
theorem pairwise_firstOfEach (h : parts.Pairwise fun p q => p.offset ≤ q.offset) :
    (firstOfEach parts).Pairwise fun p q => p.offset < q.offset := by
  fun_induction firstOfEach parts with
  | case1 => exact .nil
  | case2 q rest hnil ih => exact List.pairwise_singleton _ q
  | case3 q rest first tail hfirst hsame ih =>
    obtain ⟨hle, hrest⟩ := List.pairwise_cons.1 h
    have htail := ih hrest
    rw [hfirst] at htail
    obtain ⟨hlt, htail⟩ := List.pairwise_cons.1 htail
    exact List.pairwise_cons.2 ⟨fun r hr => hsame ▸ hlt r hr, htail⟩
  | case4 q rest first tail hfirst hother ih =>
    obtain ⟨hle, hrest⟩ := List.pairwise_cons.1 h
    have htail := ih hrest
    rw [hfirst] at htail
    have hmem : first ∈ firstOfEach rest := hfirst ▸ List.mem_cons_self
    have hlt : q.offset < first.offset :=
      UInt64.lt_of_le_of_ne (hle first (mem_of_mem_firstOfEach hmem)) (Ne.symm hother)
    refine List.pairwise_cons.2 ⟨fun r hr => ?_, htail⟩
    rcases List.mem_cons.1 hr with rfl | hr
    · exact hlt
    · exact UInt64.lt_trans hlt ((List.pairwise_cons.1 htail).1 r hr)

/-- The part that is left for an offset is the first of that offset. -/
theorem find?_of_mem_firstOfEach (h : parts.Pairwise fun p q => p.offset ≤ q.offset)
    (hp : p ∈ firstOfEach parts) :
    (parts.find? fun q => q.offset.toNat = p.offset.toNat) = some p := by
  have hstrict := pairwise_firstOfEach h
  fun_induction firstOfEach parts with
  | case1 => cases hp
  | case2 q rest hnil ih =>
    obtain rfl := List.mem_singleton.1 hp
    exact List.find?_cons_of_pos (decide_eq_true rfl)
  | case3 q rest first tail hfirst hsame ih =>
    obtain ⟨hlt, htail⟩ := List.pairwise_cons.1 hstrict
    rcases List.mem_cons.1 hp with rfl | hp
    · exact List.find?_cons_of_pos (decide_eq_true rfl)
    · have hne : ¬ q.offset.toNat = p.offset.toNat := Nat.ne_of_lt (hlt p hp)
      rw [List.find?_cons_of_neg (by simpa using hne)]
      obtain ⟨-, hrest⟩ := List.pairwise_cons.1 h
      exact ih hrest (hfirst ▸ List.mem_cons_of_mem first hp) (pairwise_firstOfEach hrest)
  | case4 q rest first tail hfirst hother ih =>
    obtain ⟨hlt, htail⟩ := List.pairwise_cons.1 hstrict
    rcases List.mem_cons.1 hp with rfl | hp
    · exact List.find?_cons_of_pos (decide_eq_true rfl)
    · have hne : ¬ q.offset.toNat = p.offset.toNat := Nat.ne_of_lt (hlt p hp)
      rw [List.find?_cons_of_neg (by simpa using hne)]
      obtain ⟨-, hrest⟩ := List.pairwise_cons.1 h
      exact ih hrest (hfirst ▸ hp) (pairwise_firstOfEach hrest)

/-- The parts of a run are among those it is taken from, and begin at or below the limit. -/
theorem mem_of_mem_run (h : p ∈ run limit expected parts) :
    p ∈ parts ∧ p.offset.toNat ≤ limit := by
  induction parts generalizing expected with
  | nil => cases h
  | cons q rest ih =>
    rw [run] at h
    split at h
    next hnext =>
      rcases List.mem_cons.1 h with rfl | hmem
      · exact ⟨List.mem_cons_self, hnext.1⟩
      · exact ⟨List.mem_cons_of_mem _ (ih hmem).1, (ih hmem).2⟩
    next => cases h

/-- A run of records on the grid covers parts. -/
theorem covers_run {l : Layout} {i : Nat} (hgrid : ∀ p ∈ parts, p.OnGrid l.size l.partSize) :
    l.Covers i (run limit (l.reach i) parts) := by
  induction parts generalizing i with
  | nil => trivial
  | cons q rest ih =>
    rw [run]
    split
    next hnext =>
      obtain ⟨j, hj, hoffset, hsize⟩ := Layout.onGrid_iff.1 (hgrid q List.mem_cons_self)
      -- The run expects the begin of a part or the end of the file, and no record begins there.
      have hij : i < l.count := by
        have := l.lt_count_iff.1 hj
        have hreach : l.reach i < l.size := by omega
        rw [l.lt_count_iff]
        simp only [Layout.reach] at hreach
        omega
      have hji : j = i := l.mul_inj (by rw [← hoffset, hnext.2, l.reach_of_lt hij])
      subst hji
      refine ⟨hoffset, hsize, ?_⟩
      rw [show q.stop = l.reach (j + 1) by rw [Part.stop, hoffset, hsize, l.reach_succ hij]]
      exact ih fun p hp => hgrid p (List.mem_cons_of_mem q hp)
    next => trivial

end Reconciliation

variable {listing : List Part} {p : Part} {inFlight : Option Nat}

/-- What counts as committed is listed. -/
theorem mem_of_mem_reconcile (h : p ∈ (reconcile inFlight listing).committed) : p ∈ listing := by
  cases inFlight with
  | none => cases h
  | some limit =>
    have hrun := (Reconciliation.mem_of_mem_run h).1
    exact List.mem_mergeSort.1 (Reconciliation.mem_of_mem_firstOfEach hrun)

/-- Of the listed parts of one offset, the first counts as committed. -/
theorem find?_of_mem_reconcile (h : p ∈ (reconcile inFlight listing).committed) :
    (listing.find? fun q => q.offset.toNat = p.offset.toNat) = some p := by
  cases inFlight with
  | none => cases h
  | some limit =>
    have hsorted := Reconciliation.pairwise_byOffset listing
    have hfirst :=
      Reconciliation.find?_of_mem_firstOfEach hsorted (Reconciliation.mem_of_mem_run h).1
    rwa [← List.head?_filter, Reconciliation.filter_byOffset, List.head?_filter] at hfirst

/-- Of a listing on the grid, what counts as committed covers the first parts. -/
theorem covers_reconcile {l : Layout} (hgrid : ∀ p ∈ listing, p.OnGrid l.size l.partSize) :
    l.Covers 0 (reconcile inFlight listing).committed := by
  cases inFlight with
  | none => trivial
  | some limit =>
    have hrun : l.Covers 0 (Reconciliation.run limit (l.reach 0)
        (Reconciliation.firstOfEach (Reconciliation.byOffset listing))) :=
      Reconciliation.covers_run fun p hp =>
        hgrid p (List.mem_mergeSort.1 (Reconciliation.mem_of_mem_firstOfEach hp))
    rwa [l.reach_zero] at hrun

/-- Of a listing on the grid, the parts before the one in flight count as committed at most, and
that one too only if it has landed. -/
theorem reconcile_length_le {l : Layout} {j : Nat}
    (hgrid : ∀ p ∈ listing, p.OnGrid l.size l.partSize) :
    (reconcile (some (j * l.partSize)) listing).committed.length ≤
      if (reconcile (some (j * l.partSize)) listing).landed then j + 1 else j := by
  have hcovers : l.Covers 0 (reconcile (some (j * l.partSize)) listing).committed :=
    covers_reconcile hgrid
  have hlisted : ∀ p ∈ (reconcile (some (j * l.partSize)) listing).committed,
      p ∈ listing ∧ p.offset.toNat ≤ j * l.partSize := fun p hp =>
    ⟨mem_of_mem_reconcile hp, (Reconciliation.mem_of_mem_run hp).2⟩
  generalize hcommitted : (reconcile (some (j * l.partSize)) listing).committed = committed at *
  by_cases hlength : committed.length ≤ j
  · split <;> omega
  · -- The record of index `j` is the one of the part in flight.
    obtain ⟨p, hp, hoffset⟩ := hcovers.exists_mem (Nat.lt_of_not_le hlength)
    rw [Nat.zero_add] at hoffset
    have hlanded : (reconcile (some (j * l.partSize)) listing).landed = true :=
      List.any_eq_true.2 ⟨p, (hlisted p hp).1, decide_eq_true hoffset⟩
    rw [if_pos hlanded]
    refine Decidable.byContradiction fun hmore => ?_
    obtain ⟨q, hq, hoffset'⟩ := hcovers.exists_mem (show j + 1 < committed.length by omega)
    have hle := (hlisted q hq).2
    rw [hoffset', Nat.zero_add, Nat.succ_mul] at hle
    have := l.partSize_pos
    omega

end ResumableUpload
