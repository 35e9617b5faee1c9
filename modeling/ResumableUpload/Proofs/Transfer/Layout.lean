import Mathlib.Data.List.Basic
import ResumableUpload.Proofs.Transfer.Stream
import ResumableUpload.Transfer.Session
import ResumableUpload.Transfer.Slot

/-!
# A stream laid out in parts

A layout is a stream together with the size of the file that it becomes and the size of the file's
parts. It says which bytes the part at an index consists of (`Layout.piece`) and how far the first
so many parts reach (`Layout.reach`). Everything that an upload must send, hash or commit is named
through these two, so the arithmetic of parts is done here, once.

A list of records covers the parts from an index on if it has one record for each, in order and of
the right size (`Layout.Covers`). Records that cover the parts leave no gap and do not overlap
(`Layout.Covers.tiles`).
-/

namespace ResumableUpload

/-- A session whose parts are not empty, and which has as many as the file needs. -/
def Session.Fits (session : Session) (fileSize : UInt64) : Prop :=
  0 < session.partSize.toNat ∧
    session.totalParts.toNat = Geometry.partCount fileSize.toNat session.partSize.toNat

instance (session : Session) (fileSize : UInt64) : Decidable (session.Fits fileSize) :=
  inferInstanceAs (Decidable (_ ∧ _))

/-- The sessions that pass the check are those that fit. -/
theorem Geometry.check_eq_ok_iff {session : Session} {fileSize : UInt64} :
    Geometry.check fileSize session.partSize session.totalParts = .ok () ↔
      session.Fits fileSize := by
  have hzero : session.partSize = 0 ↔ ¬0 < session.partSize.toNat := by
    rw [← UInt64.toNat_inj, Nat.not_lt, Nat.le_zero, UInt64.toNat_zero]
  unfold Geometry.check Session.Fits
  by_cases hpart : session.partSize = 0
  · simp only [hpart, if_true, reduceCtorEq, false_iff, UInt64.toNat_zero]
    exact fun h => absurd h.1 (Nat.lt_irrefl 0)
  · rw [if_neg hpart]
    have hpos := Decidable.not_not.1 (mt hzero.2 hpart)
    by_cases hcount : session.totalParts.toNat =
        Geometry.partCount fileSize.toNat session.partSize.toNat
    · simp only [hcount, if_true, hpos, and_self]
    · simp only [hcount, if_false, reduceCtorEq, and_false]

namespace Part

/-- A record of a part of the file: it begins where a part begins and is as long as that part. -/
def OnGrid (fileSize partSize : Nat) (p : Part) : Prop :=
  p.offset.toNat ∈ Geometry.grid fileSize partSize ∧
    p.size.toNat = Geometry.partLength fileSize partSize p.offset.toNat

/-- The server's record of these bytes: it names their offset and their number. -/
def Echoes (p : Part) (bytes : Bytes) (offset : Nat) : Prop :=
  p.offset = offset.toUInt64 ∧ p.size = bytes.length.toUInt64

instance (fileSize partSize : Nat) (p : Part) : Decidable (p.OnGrid fileSize partSize) :=
  inferInstanceAs (Decidable (_ ∧ _))

instance (p : Part) (bytes : Bytes) (offset : Nat) : Decidable (p.Echoes bytes offset) :=
  inferInstanceAs (Decidable (_ ∧ _))

/-- Records that follow on from each other, from one offset to another. -/
def Tile : Nat → Nat → List Part → Prop
  | start, stop, [] => start = stop
  | start, stop, p :: rest => p.offset.toNat = start ∧ Tile p.stop stop rest

end Part

/-- A stream that becomes a file of some size, in parts of some size. -/
structure Layout where
  stream : Reader
  fileSize : UInt64
  partSize : Nat
  partSize_pos : 0 < partSize

/-- The layout of a stream in the parts of a session that fits. -/
def Session.Fits.layout {session : Session} {fileSize : UInt64} (h : session.Fits fileSize)
    (stream : Reader) : Layout :=
  ⟨stream, fileSize, session.partSize.toNat, h.1⟩

namespace Layout

variable (l : Layout) {i k n : Nat}

def content : Bytes := l.stream.content

def size : Nat := l.fileSize.toNat

/-- The number of parts. -/
def count : Nat := Geometry.partCount l.size l.partSize

/-- The length of the part at an index. -/
def partLength (i : Nat) : Nat := Geometry.partLength l.size l.partSize (i * l.partSize)

/-- The bytes that the first `k` parts hold. -/
def reach (k : Nat) : Nat := min (k * l.partSize) l.size

/-- The part at an index. -/
def piece (i : Nat) : InFlight :=
  ⟨i * l.partSize, l.content.slice (i * l.partSize) (l.partLength i)⟩

/-! ## Where parts begin and end -/

/-- The parts are those that begin within the file. -/
theorem lt_count_iff : i < l.count ↔ i * l.partSize < l.size := by
  have hpos := l.partSize_pos
  have hmul : (i + 1) * l.partSize = i * l.partSize + l.partSize := Nat.succ_mul _ _
  rw [count, Geometry.partCount, Nat.lt_iff_add_one_le, Nat.le_div_iff_mul_le hpos]
  omega

theorem reach_le_size : l.reach k ≤ l.size := Nat.min_le_right _ _

/-- All parts together reach the end of the file. -/
theorem reach_count : l.reach l.count = l.size := by
  have h : ¬l.count * l.partSize < l.size := mt l.lt_count_iff.2 (Nat.lt_irrefl _)
  exact Nat.min_eq_right (Nat.le_of_not_lt h)

theorem reach_zero : l.reach 0 = 0 := by
  rw [reach, Nat.zero_mul, Nat.zero_min]

/-- A part begins where the parts before it end. -/
theorem reach_of_lt (h : i < l.count) : l.reach i = i * l.partSize :=
  Nat.min_eq_left (Nat.le_of_lt (l.lt_count_iff.1 h))

/-- A part ends where the next one begins. -/
theorem reach_succ (h : i < l.count) : l.reach (i + 1) = i * l.partSize + l.partLength i := by
  have := l.lt_count_iff.1 h
  have hmul : (i + 1) * l.partSize = i * l.partSize + l.partSize := Nat.succ_mul _ _
  simp only [reach, partLength, Geometry.partLength]
  omega

/-- More parts reach no less far. -/
theorem reach_mono (h : i ≤ k) : l.reach i ≤ l.reach k := by
  have := Nat.mul_le_mul_right l.partSize h
  simp only [reach]
  omega

/-- A part begins below what so many parts reach if it is one of them. -/
theorem mul_lt_reach_iff (hi : i < l.count) : i * l.partSize < l.reach k ↔ i < k := by
  have := l.lt_count_iff.1 hi
  rw [reach, Nat.lt_min, Nat.mul_lt_mul_right l.partSize_pos]
  exact and_iff_left this

/-- No part is empty. -/
theorem partLength_pos (h : i < l.count) : 0 < l.partLength i := by
  have := l.lt_count_iff.1 h
  have := l.partSize_pos
  simp only [partLength, Geometry.partLength]
  omega

/-- No further part begins inside a part. -/
theorem ne_mul_of_reach_lt (hlow : l.reach k < n) (hhigh : n < l.reach (k + 1)) (i : Nat) :
    n ≠ i * l.partSize := by
  rintro rfl
  have hsucc : (k + 1) * l.partSize = k * l.partSize + l.partSize := Nat.succ_mul _ _
  simp only [reach] at hlow hhigh
  have hki : k * l.partSize < i * l.partSize := by omega
  have hik : i * l.partSize < (k + 1) * l.partSize := by omega
  have h1 := Nat.lt_of_mul_lt_mul_right hki
  have h2 := Nat.lt_of_mul_lt_mul_right hik
  omega

/-- Distinct parts begin at distinct offsets. -/
theorem mul_inj {j : Nat} (h : i * l.partSize = j * l.partSize) : i = j :=
  Nat.eq_of_mul_eq_mul_right l.partSize_pos h

/-- Distinct parts are distinct. -/
theorem piece_inj {j : Nat} (h : l.piece i = l.piece j) : i = j :=
  l.mul_inj (congrArg InFlight.offset h)

/-! ## The bytes of a part -/

/-- A part of a stream that is long enough is as long as it should be. -/
theorem length_piece (h : i < l.count) (hlength : l.reach (i + 1) ≤ l.content.length) :
    (l.piece i).chunk.length = l.partLength i := by
  rw [reach_succ l h] at hlength
  simp only [piece, Bytes.length_slice]
  omega

/-- The part ends where the first `i + 1` parts end. -/
theorem stop_piece (h : i < l.count) (hlength : l.reach (i + 1) ≤ l.content.length) :
    (l.piece i).stop = l.reach (i + 1) := by
  rw [InFlight.stop, InFlight.size, length_piece l h hlength, reach_succ l h]
  rfl

/-- The content of the first parts and one more is the content of these parts and of that one. -/
theorem take_reach_succ (h : i < l.count) :
    l.content.take (l.reach (i + 1)) = l.content.take (l.reach i) ++ (l.piece i).chunk := by
  rw [reach_succ l h, reach_of_lt l h, List.take_add]
  rfl

/-! ## Records of the parts -/

/-- One record for each part from index `i` on, in order. -/
def Covers : Nat → List Part → Prop
  | _, [] => True
  | i, p :: rest =>
    p.offset.toNat = i * l.partSize ∧ p.size.toNat = l.partLength i ∧ Covers (i + 1) rest

variable {l} {p : Part} {parts : List Part}

/-- A record on the grid is one of some part. -/
theorem onGrid_iff : p.OnGrid l.size l.partSize ↔
    ∃ i < l.count, p.offset.toNat = i * l.partSize ∧ p.size.toNat = l.partLength i := by
  simp only [Part.OnGrid, Geometry.grid, List.mem_map, List.mem_range]
  constructor
  · rintro ⟨⟨i, hi, hoffset⟩, hsize⟩
    exact ⟨i, hi, hoffset.symm, by rw [hsize, ← hoffset, partLength]⟩
  · rintro ⟨i, hi, hoffset, hsize⟩
    exact ⟨⟨i, hi, hoffset.symm⟩, by rw [hsize, hoffset, partLength]⟩

/-- A record on the grid that names the offset of a part has the part's length. -/
theorem size_of_onGrid (h : p.OnGrid l.size l.partSize)
    (hoffset : p.offset.toNat = i * l.partSize) : i < l.count ∧ p.size.toNat = l.partLength i := by
  obtain ⟨j, hj, hoffset', hsize⟩ := onGrid_iff.1 h
  obtain rfl := l.mul_inj (hoffset'.symm.trans hoffset)
  exact ⟨hj, hsize⟩

/-- The record of a part that has been sent is on the grid. -/
theorem onGrid_of_echoes (hi : i < l.count) (hlength : l.reach (i + 1) ≤ l.content.length)
    (h : p.Echoes (l.piece i).chunk (l.piece i).offset) :
    p.offset.toNat = i * l.partSize ∧ p.OnGrid l.size l.partSize := by
  have hend := l.reach_le_size (k := i + 1)
  rw [reach_succ l hi] at hend
  have hsize : l.size < 2 ^ 64 := l.fileSize.toNat_lt
  obtain ⟨hoffset, hbytes⟩ := h
  have hoffset' : p.offset.toNat = i * l.partSize := by
    rw [hoffset, UInt64.toNat_ofNat']
    exact Nat.mod_eq_of_lt (by simp only [piece]; omega)
  refine ⟨hoffset', onGrid_iff.2 ⟨i, hi, hoffset', ?_⟩⟩
  rw [hbytes, length_piece l hi hlength, UInt64.toNat_ofNat']
  exact Nat.mod_eq_of_lt (by omega)

/-- A record of the next part goes on covering. -/
theorem Covers.concat (h : l.Covers i parts)
    (hoffset : p.offset.toNat = (i + parts.length) * l.partSize)
    (hsize : p.size.toNat = l.partLength (i + parts.length)) : l.Covers i (parts ++ [p]) := by
  induction parts generalizing i with
  | nil => exact ⟨hoffset, hsize, trivial⟩
  | cons q rest ih =>
    have hlength : i + (q :: rest).length = i + 1 + rest.length := by
      rw [List.length_cons]; omega
    rw [hlength] at hoffset hsize
    exact ⟨h.1, h.2.1, ih h.2.2 hoffset hsize⟩

/-- There is a record of every part that is covered. -/
theorem Covers.exists_mem (h : l.Covers i parts) (hk : k < parts.length) :
    ∃ p ∈ parts, p.offset.toNat = (i + k) * l.partSize := by
  induction parts generalizing i k with
  | nil => cases hk
  | cons q rest ih =>
    cases k with
    | zero => exact ⟨q, List.mem_cons_self, h.1⟩
    | succ k =>
      obtain ⟨p, hp, hoffset⟩ := ih h.2.2 (Nat.lt_of_succ_lt_succ hk)
      refine ⟨p, List.mem_cons_of_mem q hp, ?_⟩
      rw [hoffset, Nat.add_right_comm, Nat.add_assoc]

/-- The offsets of records that cover every part, in order. -/
theorem Covers.map_offset (h : l.Covers i parts) :
    parts.map (·.offset.toNat) = (List.range' i parts.length).map (· * l.partSize) := by
  induction parts generalizing i with
  | nil => rfl
  | cons q rest ih =>
    rw [List.length_cons, List.range'_succ, List.map_cons, List.map_cons, ih h.2.2, h.1]

/-- Records that cover parts follow on from each other, from the first part's begin to the last
one's end. -/
theorem Covers.tiles (h : l.Covers i parts) (hi : i + parts.length ≤ l.count) :
    Part.Tile (l.reach i) (l.reach (i + parts.length)) parts := by
  induction parts generalizing i with
  | nil => rfl
  | cons q rest ih =>
    obtain ⟨hoffset, hsize, hrest⟩ := h
    simp only [List.length_cons] at hi
    have hlt : i < l.count := by omega
    have hlength : i + (q :: rest).length = i + 1 + rest.length := by
      rw [List.length_cons]; omega
    have hstop : q.stop = l.reach (i + 1) := by
      rw [Part.stop, hoffset, hsize, reach_succ l hlt]
    refine ⟨by rw [hoffset, reach_of_lt l hlt], ?_⟩
    rw [hstop, hlength]
    exact ih hrest (by omega)

end Layout

end ResumableUpload
