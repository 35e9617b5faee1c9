import Mathlib.Data.List.Basic
import ResumableUpload.Transfer.Source

/-!
# What a stream holds, and what is cut off it

The content of a stream is what it delivers before its end of data, whatever the bursts are and
however often it stalls or fails (`Reader.content`). A source that has been cut from a stream
carries on exactly where it stands: the bytes it has handed out, the bytes that wait for the next
chunk, and the bytes that are still to come make up the content, in this order (`Source.CutFrom`).

`Source.nextChunk_cases` is the one statement about chunks that the rest relies on. A call either
fails, and then one failure of the stream is used up and nothing is lost, or it hands out the slice
of the content that begins at the source's position.
-/

namespace ResumableUpload

namespace Delivery

/-- The bytes of a script up to its end of data. A burst of no bytes is an end of data too. -/
def content : List Delivery → Bytes
  | [] => []
  | .data bytes burst :: rest =>
    if burst = some 0 ∧ bytes ≠ [] then [] else bytes ++ content rest
  | .stall :: rest => content rest
  | .failure _ :: rest => content rest
  | .endOfData :: _ => []

/-- The failing reads of a script. -/
def failures : List Delivery → Nat
  | [] => 0
  | .failure _ :: rest => failures rest + 1
  | _ :: rest => failures rest

end Delivery

namespace ReadOutcome

/-- The bytes that a read has returned. -/
def got : ReadOutcome → Bytes
  | .bytes returned => returned
  | .notReady => []
  | .failed _ => []

/-- The failures that a read has met: none or one. -/
def failures : ReadOutcome → Nat
  | .failed _ => 1
  | _ => 0

end ReadOutcome

namespace Delivery

/-- A read returns no more than its buffer takes. -/
theorem length_got_deliver_le (length : Nat) (script : List Delivery) :
    (deliver length script).1.got.length ≤ length := by
  fun_induction deliver length script with
  | case2 _ _ _ _ ih => exact ih
  | case3 bytes burst rest hb n =>
    simp only [ReadOutcome.got, List.length_take]
    omega
  | _ => exact Nat.zero_le _

/-- What a read returns is gone from the script, and nothing else is. -/
theorem unread_deliver (length : Nat) (script : List Delivery) :
    (deliver length script).1.got.length + unread (deliver length script).2 = unread script := by
  fun_induction deliver length script with
  | case2 bytes burst rest hb ih =>
    have : bytes = [] := by simpa using hb
    simp only [unread, this, List.length_nil]
    omega
  | case3 bytes burst rest hb n =>
    simp only [ReadOutcome.got, unread, List.length_take, List.length_drop]
    omega
  | _ => simp only [ReadOutcome.got, unread, List.length_nil, Nat.zero_add]

/-- A failure that a read meets is gone from the script, and no other is. -/
theorem failures_deliver (length : Nat) (script : List Delivery) :
    (deliver length script).1.failures + failures (deliver length script).2 = failures script := by
  fun_induction deliver length script with
  | case2 bytes burst rest hb ih => simpa only [failures] using ih
  | case5 cause rest => simp only [ReadOutcome.failures, failures]; omega
  | _ => simp only [ReadOutcome.failures, failures, Nat.zero_add]

/-- As long as a read does not find the end of data, it takes its bytes off the content. -/
theorem content_deliver (length : Nat) (script : List Delivery)
    (h : (deliver length script).1 ≠ .bytes []) :
    content script = (deliver length script).1.got ++ content (deliver length script).2 := by
  fun_induction deliver length script with
  | case1 => exact absurd rfl h
  | case2 bytes burst rest hb ih =>
    have hnil : bytes = [] := by simpa using hb
    have hne : ¬(burst = some 0 ∧ bytes ≠ []) := fun hz => hz.2 hnil
    rw [content, if_neg hne, ih h, hnil, List.nil_append]
  | case3 bytes burst rest hb n =>
    have hburst : burst ≠ some 0 := by
      rintro rfl
      apply h
      simp only [n, Option.getD_some, Nat.min_zero, List.take_zero]
    have hne : ∀ bytes : Bytes, ¬(burst = some 0 ∧ bytes ≠ []) := fun _ hz => hburst hz.1
    simp only [content, if_neg (hne _), ReadOutcome.got]
    rw [← List.append_assoc, List.take_append_drop]
  | case4 rest => rfl
  | case5 cause rest => rfl
  | case6 => exact absurd rfl h

/-- A read that finds the end of data has no content before it. -/
theorem content_eq_nil_of_deliver (length : Nat) (script : List Delivery) (hlength : 0 < length)
    (h : (deliver length script).1 = .bytes []) : content script = [] := by
  fun_induction deliver length script with
  | case1 => rfl
  | case2 bytes burst rest hb ih =>
    have hnil : bytes = [] := by simpa using hb
    rw [content, hnil, ih h]
    split <;> rfl
  | case3 bytes burst rest hb n =>
    have hbytes : bytes ≠ [] := by simpa using hb
    have hn : n = 0 := by
      simp only [ReadOutcome.bytes.injEq, List.take_eq_nil_iff] at h
      exact h.resolve_right hbytes
    have hburst : burst = some 0 := by
      cases burst with
      | none => simp only [n, Option.getD_none] at hn; omega
      | some k => simp only [n, Option.getD_some] at hn; simp only [Option.some.injEq]; omega
    rw [content, if_pos ⟨hburst, hbytes⟩]
  | case4 rest => cases h
  | case5 cause rest => cases h
  | case6 => rfl

end Delivery

namespace Reader

/-- The bytes that a stream delivers before its end of data. -/
def content (r : Reader) : Bytes := Delivery.content r.script

/-- The failing reads that a stream has in store. -/
def failures (r : Reader) : Nat := Delivery.failures r.script

variable {r r' : Reader} {length : Nat} {outcome : ReadOutcome}

/-- What one read does to a stream, unless it finds the end of data. -/
theorem content_of_read (hread : r.read length = (outcome, r')) (h : outcome ≠ .bytes []) :
    r.content = outcome.got ++ r'.content := by
  cases hread
  exact Delivery.content_deliver length r.script h

/-- Before the end of data that a read finds there is no content. -/
theorem content_eq_nil_of_read (hread : r.read length = (.bytes [], r')) (hlength : 0 < length) :
    r.content = [] :=
  Delivery.content_eq_nil_of_deliver length r.script hlength (congrArg Prod.fst hread)

theorem length_got_le_of_read (hread : r.read length = (outcome, r')) :
    outcome.got.length ≤ length := by
  cases hread
  exact Delivery.length_got_deliver_le length r.script

/-- A read takes so many bytes from the stream as it returns. -/
theorem unread_of_read (hread : r.read length = (outcome, r')) :
    outcome.got.length + r'.unread = r.unread := by
  cases hread
  exact Delivery.unread_deliver length r.script

/-- A read takes a failure from the stream if and only if it fails. -/
theorem failures_of_read (hread : r.read length = (outcome, r')) :
    outcome.failures + r'.failures = r.failures := by
  cases hread
  exact Delivery.failures_deliver length r.script

end Reader

namespace Source

/-- The bytes that are still to come. -/
def rest (s : Source) : Bytes := if s.exhausted then [] else s.reader.content

theorem rest_of_not_exhausted {s : Source} (h : ¬s.exhausted = true) : s.rest = s.reader.content :=
  if_neg h

/-- What filling up to `length` bytes leads to: `cause` is the failure that ended it, if one did. -/
structure Filled (length : Nat) (s : Source) (cause : Option String) (t : Source) : Prop where
  /-- Nothing is handed out. -/
  position_eq : t.position = s.position
  /-- Bytes only move from the stream to the chunk. -/
  joined : t.pending ++ t.rest = s.pending ++ s.rest
  /-- The stream holds so many bytes fewer as the chunk holds more. -/
  supply : t.pending.length + t.reader.unread = s.pending.length + s.reader.unread
  room : t.pending.length ≤ max length s.pending.length
  /-- Without a failure the chunk is full or the stream at its end. -/
  full : cause = none → length ≤ t.pending.length ∨ t.exhausted = true
  failures_le : cause.toList.length + t.reader.failures ≤ s.reader.failures

/-- A read that returns bytes, or is not ready, goes before what filling leads to then. -/
theorem Filled.of_read {length : Nat} {s t : Source} {cause : Option String} {outcome : ReadOutcome}
    {reader : Reader} (hread : s.reader.read (length - s.pending.length) = (outcome, reader))
    (hshort : s.pending.length < length) (hopen : ¬s.exhausted = true) (hne : outcome ≠ .bytes [])
    (hrest : Filled length { s with reader, pending := s.pending ++ outcome.got } cause t) :
    Filled length s cause t := by
  refine ⟨hrest.position_eq, ?_, ?_, ?_, hrest.full, ?_⟩
  · calc t.pending ++ t.rest
        = s.pending ++ outcome.got ++ reader.content := by
          rw [hrest.joined, rest_of_not_exhausted (by exact hopen)]
      _ = s.pending ++ s.rest := by
          rw [List.append_assoc, ← Reader.content_of_read hread hne, rest_of_not_exhausted hopen]
  · have hsupply := hrest.supply
    have hunread := Reader.unread_of_read hread
    simp only [List.length_append] at hsupply
    omega
  · have hroom := hrest.room
    have hgot := Reader.length_got_le_of_read hread
    simp only [List.length_append] at hroom
    omega
  · have hle := hrest.failures_le
    have hfailures := Reader.failures_of_read hread
    simp only at hle
    omega

/-- Filling keeps every byte, fills the chunk unless the stream ends, and uses up the failure that
interrupts it. -/
theorem fill_filled (s : Source) (length : Nat) :
    Filled length s (s.fill length).1 (s.fill length).2 := by
  fun_induction fill s length with
  | case1 s hopen reader hread =>
    -- The end of data: nothing is added, and nothing was left.
    have hunread := Reader.unread_of_read hread
    have hfailures := Reader.failures_of_read hread
    have hend : s.rest = [] := by
      rw [rest_of_not_exhausted hopen.2]
      exact Reader.content_eq_nil_of_read hread (by omega)
    simp only [ReadOutcome.got, ReadOutcome.failures, List.length_nil] at hunread hfailures
    refine ⟨rfl, ?_, ?_, Nat.le_max_right _ _, fun _ => .inr rfl, ?_⟩
    · rw [hend]; rfl
    · simp only; omega
    · simp only [Option.toList_none, List.length_nil]; omega
  | case2 s hopen b bs reader hread ih =>
    exact .of_read hread hopen.1 hopen.2 (by simp) ih
  | case3 s hopen reader hread ih =>
    refine .of_read hread hopen.1 hopen.2 (by simp) ?_
    simpa only [ReadOutcome.got, List.append_nil] using ih
  | case4 s hopen cause reader hread =>
    have hunread := Reader.unread_of_read hread
    have hfailures := Reader.failures_of_read hread
    have hcontent := Reader.content_of_read hread (by simp)
    simp only [ReadOutcome.got, ReadOutcome.failures, List.length_nil, List.nil_append]
      at hunread hfailures hcontent
    refine ⟨rfl, ?_, ?_, Nat.le_max_right _ _, nofun, ?_⟩
    · rw [rest_of_not_exhausted hopen.2, rest_of_not_exhausted (by exact hopen.2), hcontent]
    · simp only; omega
    · simp only [Option.toList_some, List.length_singleton]; omega
  | case5 s hdone =>
    refine ⟨rfl, rfl, rfl, Nat.le_max_right _ _, fun _ => ?_, Nat.le_of_eq (Nat.zero_add _)⟩
    by_cases hlength : length ≤ s.pending.length
    · exact .inl hlength
    · refine .inr (Decidable.byContradiction fun hopen => hdone ⟨by omega, hopen⟩)

/-- A source that has been cut from a stream. -/
structure CutFrom (stream : Reader) (s : Source) : Prop where
  position_le : s.position ≤ stream.content.length
  /-- Behind what has been handed out comes what waits, and then what is still to come. -/
  ahead : stream.content.drop s.position = s.pending ++ s.rest
  /-- Every byte pulled out of the stream has been handed out or waits. -/
  supply : s.position + s.pending.length + s.reader.unread = stream.unread

/-- Nothing has been cut off yet. -/
theorem cutFrom_ofReader (stream : Reader) : (ofReader stream).CutFrom stream where
  position_le := Nat.zero_le _
  ahead := rfl
  supply := by simp only [ofReader, List.length_nil, Nat.zero_add]

/-- The bytes at the front of what is ahead are the slice at the source's position. -/
theorem CutFrom.take_pending {stream : Reader} {s : Source} (h : s.CutFrom stream) {length : Nat}
    (hroom : s.pending.length ≤ length) (hfull : length ≤ s.pending.length ∨ s.exhausted = true) :
    stream.content.slice s.position length = s.pending := by
  rw [Bytes.slice, h.ahead]
  rcases hfull with hfull | hend
  · rw [List.take_append_of_le_length hfull, List.take_of_length_le hroom]
  · rw [rest, if_pos hend, List.append_nil, List.take_of_length_le hroom]

/-- Filling leaves a source where it stands. -/
theorem CutFrom.of_filled {stream : Reader} {s t : Source} (h : s.CutFrom stream) {length : Nat}
    {cause : Option String} (hfilled : Filled length s cause t) : t.CutFrom stream := by
  have hposition := hfilled.position_eq
  have hsupply := hfilled.supply
  have hsupply' := h.supply
  exact ⟨hposition ▸ h.position_le, by rw [hposition, h.ahead, hfilled.joined], by omega⟩

/-- Handing out all that waits moves a source on behind it. -/
theorem CutFrom.handOut {stream : Reader} {s : Source} (h : s.CutFrom stream) :
    { s with position := s.position + s.pending.length, pending := [] }.CutFrom stream := by
  refine ⟨?_, ?_, ?_⟩
  · have := congrArg List.length h.ahead
    have := h.position_le
    simp only [List.length_drop, List.length_append] at *
    omega
  · rw [← List.drop_drop, h.ahead, List.drop_left]
    rfl
  · have := h.supply
    simp only [List.length_nil, Nat.add_zero]
    omega

/-- However much waits for a chunk, a call that fails leaves the source where it stands, and one
that succeeds hands out the slice that begins there. -/
theorem CutFrom.of_nextChunk {stream : Reader} {s t : Source} (h : s.CutFrom stream) {length : Nat}
    {result : Except String Bytes} (hchunk : s.nextChunk length = (result, t)) :
    t.CutFrom stream ∧ t.position + t.pending.length ≤ s.position + max length s.pending.length ∧
      (∀ cause, result = .error cause → t.position = s.position) ∧
      ∀ chunk, result = .ok chunk → chunk = stream.content.slice s.position chunk.length ∧
        t.position = s.position + chunk.length := by
  obtain ⟨⟨cause, v⟩, hfill⟩ : ∃ out, s.fill length = out := ⟨_, rfl⟩
  have hfilled : Filled length s cause v := by simpa only [hfill] using fill_filled s length
  have hcut : v.CutFrom stream := h.of_filled hfilled
  have hposition := hfilled.position_eq
  have hroom := hfilled.room
  cases cause with
  | some cause =>
    simp only [nextChunk, hfill, Prod.mk.injEq] at hchunk
    obtain ⟨rfl, rfl⟩ := hchunk
    exact ⟨hcut, by omega, fun _ _ => hposition, nofun⟩
  | none =>
    simp only [nextChunk, hfill, Prod.mk.injEq] at hchunk
    obtain ⟨rfl, rfl⟩ := hchunk
    refine ⟨hcut.handOut, by simp only [List.length_nil]; omega, nofun, ?_⟩
    rintro _ ⟨⟩
    have hslice := hcut.take_pending (Nat.le_refl _) (.inl (Nat.le_refl _))
    exact ⟨by rw [← hposition, hslice], by rw [hposition]⟩

/-- A chunk that is asked for again after a failure is no shorter than what waits for it. Then the
call fails, and has used up a failure of the stream and lost nothing, or it answers the slice at the
source's position and moves on behind it. -/
theorem nextChunk_cases {stream : Reader} {s : Source} (h : s.CutFrom stream) {length : Nat}
    (hroom : s.pending.length ≤ length) :
    (∃ cause t, s.nextChunk length = (.error cause, t) ∧ t.CutFrom stream ∧
      t.position = s.position ∧ t.pending.length ≤ length ∧
      t.reader.failures < s.reader.failures) ∨
    ∃ t, s.nextChunk length = (.ok (stream.content.slice s.position length), t) ∧
      t.CutFrom stream ∧ t.position = s.position + (stream.content.slice s.position length).length ∧
      t.pending = [] ∧ t.reader.failures ≤ s.reader.failures := by
  obtain ⟨⟨cause, t⟩, hfill⟩ : ∃ out, s.fill length = out := ⟨_, rfl⟩
  have hfilled : Filled length s cause t := by simpa only [hfill] using fill_filled s length
  have hposition := hfilled.position_eq
  have hpending := hfilled.room
  have hfailures := hfilled.failures_le
  have hcut : t.CutFrom stream := h.of_filled hfilled
  cases cause with
  | some cause =>
    simp only [Option.toList_some, List.length_singleton] at hfailures
    refine .inl ⟨cause, t, by simp only [nextChunk, hfill], hcut, hposition, by omega, by omega⟩
  | none =>
    have hslice : stream.content.slice t.position length = t.pending :=
      hcut.take_pending (by omega) (hfilled.full rfl)
    rw [hposition] at hslice
    simp only [Option.toList_none, List.length_nil, Nat.zero_add] at hfailures
    refine .inr ⟨{ t with position := t.position + t.pending.length, pending := [] },
      by simp only [nextChunk, hfill, hslice], hcut.handOut, ?_, rfl, hfailures⟩
    simp only [hslice, hposition]

end Source

end ResumableUpload
