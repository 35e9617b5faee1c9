import Mathlib.Data.List.Chain
import ResumableUpload.Proofs.Transfer.Listing

/-!
# The longest run of a listing

With a part in flight, what counts as committed is a run of the listing: it begins at offset 0, each
record begins where the one before ends, and none begins above the part in flight (`Gapless`). No
run that goes on from it is longer (`Longest`): the listing has no record where the run ends, or it
has one inside the run's last record, and that stands in the way.

The listing may be anything. Its records may come in any order, repeat offsets, overlap, leave gaps
or be empty. Sorting and dropping repeated offsets leave a list of rising offsets that has each
listed offset once, and the run is a prefix of it (`exists_append_run`).
-/

namespace ResumableUpload

namespace Reconciliation

variable {parts listing : List Part} {p q : Part} {limit expected : Nat}

/-- Records of a listing from offset 0 on that leave no gap, and do not begin above the limit. -/
structure Gapless (limit : Nat) (listing parts : List Part) : Prop where
  /-- Of the records of one offset, the first that is listed. -/
  first : ∀ p ∈ parts, (listing.find? fun q => q.offset.toNat = p.offset.toNat) = some p
  begins : ∀ p ∈ parts.head?, p.offset.toNat = 0
  /-- The next record begins where this one ends, and none is listed between their begins. -/
  follows : parts.IsChain fun p q => q.offset.toNat = p.stop ∧ p.offset < q.offset ∧
    ∀ r ∈ listing, r.offset ≤ p.offset ∨ q.offset ≤ r.offset
  within : ∀ p ∈ parts, p.offset.toNat ≤ limit

/-- Such records to which no further one can be added. -/
structure Longest (limit : Nat) (listing parts : List Part) : Prop
    extends Gapless limit listing parts where
  /-- There is nothing to begin with. -/
  empty : parts = [] → ∀ p ∈ listing, p.offset.toNat ≠ 0
  /-- There is nothing to go on with, or it is not the next in the order of offsets. -/
  last : ∀ p ∈ parts.getLast?, p.offset.toNat < p.stop → p.stop ≤ limit →
    (∀ q ∈ listing, q.offset.toNat ≠ p.stop) ∨
      ∃ q ∈ listing, p.offset < q.offset ∧ q.offset.toNat < p.stop

/-! ## The listing in order -/

/-- Every offset keeps a part. -/
theorem exists_mem_firstOfEach (h : p ∈ parts) : ∃ q ∈ firstOfEach parts, q.offset = p.offset := by
  fun_induction firstOfEach parts with
  | case1 => cases h
  | case2 q rest hnil ih =>
    rcases List.mem_cons.1 h with rfl | hmem
    · exact ⟨p, List.mem_cons_self, rfl⟩
    · obtain ⟨r, hr, -⟩ := ih hmem
      rw [hnil] at hr
      cases hr
  | case3 q rest first tail hfirst hsame ih =>
    rcases List.mem_cons.1 h with rfl | hmem
    · exact ⟨p, List.mem_cons_self, rfl⟩
    · obtain ⟨r, hr, hoffset⟩ := ih hmem
      rw [hfirst] at hr
      rcases List.mem_cons.1 hr with rfl | hr
      · exact ⟨q, List.mem_cons_self, hsame ▸ hoffset⟩
      · exact ⟨r, List.mem_cons_of_mem q hr, hoffset⟩
  | case4 q rest first tail hfirst hother ih =>
    rcases List.mem_cons.1 h with rfl | hmem
    · exact ⟨p, List.mem_cons_self, rfl⟩
    · obtain ⟨r, hr, hoffset⟩ := ih hmem
      exact ⟨r, List.mem_cons_of_mem q (hfirst ▸ hr), hoffset⟩

/-- The listing in the order of offsets, with the first record of each. -/
def inOrder (listing : List Part) : List Part := firstOfEach (byOffset listing)

theorem pairwise_inOrder (listing : List Part) :
    (inOrder listing).Pairwise fun p q => p.offset < q.offset :=
  pairwise_firstOfEach (pairwise_byOffset listing)

theorem mem_listing_of_mem_inOrder (h : p ∈ inOrder listing) : p ∈ listing :=
  List.mem_mergeSort.1 (mem_of_mem_firstOfEach h)

theorem exists_mem_inOrder (h : p ∈ listing) : ∃ q ∈ inOrder listing, q.offset = p.offset :=
  exists_mem_firstOfEach (List.mem_mergeSort.2 h)

/-! ## The run -/

/-- A run begins where it is expected to. -/
theorem offset_of_head?_run (h : p ∈ (run limit expected parts).head?) :
    p.offset.toNat = expected := by
  cases parts with
  | nil => cases h
  | cons q rest =>
    rw [run] at h
    split at h
    next hnext =>
      cases h
      exact hnext.2
    next => cases h

/-- Where a run ends. -/
def runEnd (expected : Nat) (parts : List Part) : Nat :=
  (parts.getLast?.map Part.stop).getD expected

/-- A run is a prefix, and what comes next is above the limit, or not where the run ends. -/
theorem exists_append_run (limit expected : Nat) (parts : List Part) :
    ∃ rest, parts = run limit expected parts ++ rest ∧
      ∀ p ∈ rest.head?, p.offset.toNat ≤ limit →
        p.offset.toNat ≠ runEnd expected (run limit expected parts) := by
  induction parts generalizing expected with
  | nil => exact ⟨[], rfl, nofun⟩
  | cons q rest ih =>
    rw [run]
    split
    next hnext =>
      obtain ⟨after, hrest, hstops⟩ := ih q.stop
      refine ⟨after, congrArg (q :: ·) hrest, ?_⟩
      have hend : runEnd expected (q :: run limit q.stop rest) =
          runEnd q.stop (run limit q.stop rest) := by
        simp only [runEnd, List.getLast?_cons, Option.map_some, Option.getD_some]
        cases (run limit q.stop rest).getLast? <;> rfl
      rw [hend]
      exact hstops
    next hnext =>
      refine ⟨q :: rest, rfl, ?_⟩
      rintro _ ⟨⟩ hle heq
      exact hnext ⟨hle, heq⟩

/-- Each record of a run begins where the one before ends. -/
theorem isChain_run (limit expected : Nat) (parts : List Part) :
    (run limit expected parts).IsChain fun p q => q.offset.toNat = p.stop := by
  induction parts generalizing expected with
  | nil => exact .nil
  | cons q rest ih =>
    rw [run]
    split
    next => exact List.isChain_cons.2 ⟨fun p hp => offset_of_head?_run hp, ih q.stop⟩
    next => exact .nil

/-- The offsets of a run rise. -/
theorem pairwise_run (listing : List Part) :
    (run limit expected (inOrder listing)).Pairwise fun p q => p.offset < q.offset := by
  obtain ⟨rest, hsplit, -⟩ := exists_append_run limit expected (inOrder listing)
  have hrising := pairwise_inOrder listing
  rw [hsplit] at hrising
  exact (List.pairwise_append.1 hrising).1

/-- Between neighbours of rising offsets there is no other one. -/
theorem isChain_of_pairwise (h : parts.Pairwise fun p q => p.offset < q.offset) :
    parts.IsChain fun p q => p.offset < q.offset ∧
      ∀ r ∈ parts, r.offset ≤ p.offset ∨ q.offset ≤ r.offset := by
  have hlt := List.pairwise_iff_getElem.1 h
  have hle : ∀ i j (hi : i < parts.length) (hj : j < parts.length), i ≤ j →
      parts[i].offset ≤ parts[j].offset := by
    intro i j hi hj hij
    rcases Nat.eq_or_lt_of_le hij with rfl | hij
    · exact UInt64.le_refl _
    · exact UInt64.le_of_lt (hlt i j hi hj hij)
  refine List.isChain_iff_getElem.2 fun i hi => ⟨hlt i (i + 1) _ hi (Nat.lt_succ_self i), ?_⟩
  intro r hr
  obtain ⟨j, hj, rfl⟩ := List.getElem_of_mem hr
  rcases Nat.lt_or_ge i j with hij | hij
  · exact .inr (hle (i + 1) j hi hj hij)
  · exact .inl (hle j i hj _ hij)

/-- Of rising offsets the last is the greatest. -/
theorem offset_le_of_getLast? (h : parts.Pairwise fun p q => p.offset < q.offset)
    (hp : p ∈ parts.getLast?) (hq : q ∈ parts) : q.offset ≤ p.offset := by
  rw [← List.dropLast_append_getLast? p hp] at h hq
  obtain ⟨-, -, hlt⟩ := List.pairwise_append.1 h
  rcases List.mem_append.1 hq with hmem | hmem
  · exact UInt64.le_of_lt (hlt q hmem p (List.mem_singleton_self p))
  · exact List.mem_singleton.1 hmem ▸ UInt64.le_refl _

/-- The run of a listing in order leaves no gap. -/
theorem gapless_run (limit : Nat) (listing : List Part) :
    Gapless limit listing (run limit 0 (inOrder listing)) := by
  obtain ⟨rest, hsplit, -⟩ := exists_append_run limit 0 (inOrder listing)
  have hrising := isChain_of_pairwise (pairwise_inOrder listing)
  rw [hsplit] at hrising
  have hstops := List.isChain_iff_getElem.1 (isChain_run limit 0 (inOrder listing))
  have hbetween := List.isChain_iff_getElem.1 hrising.left_of_append
  refine ⟨fun p hp => @find?_of_mem_reconcile listing p (some limit) hp,
    fun p hp => offset_of_head?_run hp, ?_, fun p hp => (mem_of_mem_run hp).2⟩
  refine List.isChain_iff_getElem.2 fun i hi => ⟨hstops i hi, (hbetween i hi).1, fun r hr => ?_⟩
  obtain ⟨s, hs, hoffset⟩ := exists_mem_inOrder hr
  rw [hsplit] at hs
  exact hoffset ▸ (hbetween i hi).2 s hs

/-- If a record begins where the run ends and the run does not go on with it, another record begins
in between. -/
theorem exists_next_of_listed (h : p ∈ listing) (hlimit : p.offset.toNat ≤ limit)
    (hend : p.offset.toNat = runEnd 0 (run limit 0 (inOrder listing)))
    (hbehind : ∀ q ∈ run limit 0 (inOrder listing), q.offset < p.offset) :
    ∃ next ∈ listing, next.offset < p.offset ∧
      ∀ q ∈ run limit 0 (inOrder listing), q.offset < next.offset := by
  obtain ⟨rest, hsplit, hstops⟩ := exists_append_run limit 0 (inOrder listing)
  obtain ⟨r, hr, hoffset⟩ := exists_mem_inOrder h
  have hrising := pairwise_inOrder listing
  rw [hsplit] at hr hrising
  have hrest : r ∈ rest := (List.mem_append.1 hr).resolve_left fun hmem =>
    UInt64.lt_irrefl _ (hoffset ▸ hbehind r hmem)
  cases rest with
  | nil => cases hrest
  | cons next rest =>
    obtain ⟨-, hrest', hcross⟩ := List.pairwise_append.1 hrising
    have hle : next.offset ≤ p.offset := by
      rcases List.mem_cons.1 hrest with rfl | hmem
      · exact hoffset ▸ UInt64.le_refl _
      · exact hoffset ▸ UInt64.le_of_lt ((List.pairwise_cons.1 hrest').1 r hmem)
    have hne : next.offset ≠ p.offset := fun heq =>
      hstops next rfl (heq ▸ hlimit) (heq ▸ hend)
    refine ⟨next, mem_listing_of_mem_inOrder (hsplit ▸ List.mem_append_right _ List.mem_cons_self),
      UInt64.lt_of_le_of_ne hle hne, fun q hq => hcross q hq next List.mem_cons_self⟩

/-- The run of a listing in order is the longest. -/
theorem longest_run (limit : Nat) (listing : List Part) :
    Longest limit listing (run limit 0 (inOrder listing)) := by
  refine { gapless_run limit listing with empty := ?_, last := ?_ }
  · intro hnil p hp hzero
    obtain ⟨next, -, hlt, -⟩ := exists_next_of_listed hp (show _ ≤ limit by omega)
      (by rw [hnil, hzero]; rfl) (by rw [hnil]; exact nofun)
    rw [UInt64.lt_iff_toNat_lt] at hlt
    omega
  · intro p hp hlt hle
    rw [or_iff_not_imp_left]
    intro hlisted
    obtain ⟨q, hq, hstop⟩ : ∃ q ∈ listing, q.offset.toNat = p.stop := by
      simpa only [not_forall, ne_eq, not_not, exists_prop] using hlisted
    have hend : q.offset.toNat = runEnd 0 (run limit 0 (inOrder listing)) := by
      simp only [runEnd, Option.mem_def.1 hp, Option.map_some, Option.getD_some, hstop]
    have hbehind : ∀ r ∈ run limit 0 (inOrder listing), r.offset < q.offset := by
      intro r hr
      have hlast := UInt64.le_iff_toNat_le.1 (offset_le_of_getLast? (pairwise_run listing) hp hr)
      rw [UInt64.lt_iff_toNat_lt]
      omega
    obtain ⟨next, hnext, hbefore, hafter⟩ :=
      exists_next_of_listed hq (by omega) hend hbehind
    refine ⟨next, hnext, hafter p (List.mem_of_getLast? hp), ?_⟩
    rw [UInt64.lt_iff_toNat_lt] at hbefore
    omega

end Reconciliation

/-- Whatever a listing holds, and whatever part is in flight: the records that count as committed
are the longest run of the listing up to the part in flight. That part has landed if and only if its
offset is listed, whether or not the run gets there. -/
theorem committed_is_longest_run (inFlight : Nat) (listing : List Part) :
    Reconciliation.Longest inFlight listing (reconcile (some inFlight) listing).committed ∧
      ((reconcile (some inFlight) listing).landed = true ↔
        ∃ p ∈ listing, p.offset.toNat = inFlight) := by
  refine ⟨Reconciliation.longest_run inFlight listing, ?_⟩
  simp only [reconcile, List.any_eq_true, decide_eq_true_iff]

/-- The part in flight has landed behind a gap. The first record of offset 0 counts, and the run
ends with it although the second one would reach further. -/
example : reconcile (some 2) [⟨"c", 2, 1, ""⟩, ⟨"a", 0, 1, ""⟩, ⟨"b", 0, 2, ""⟩] =
    ⟨[⟨"a", 0, 1, ""⟩], true⟩ := by cbv

end ResumableUpload
