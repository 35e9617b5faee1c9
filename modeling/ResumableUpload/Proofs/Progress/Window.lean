import Mathlib.Data.List.DropRight
import ResumableUpload.Progress.Throughput
import ResumableUpload.Proofs.Decimal.Doubles

/-!
# The window of a throughput

A throughput drops samples one call at a time: those that are too old when the next one comes in,
and then the oldest of too many. What is left is nonetheless a function of the whole history, as
`IsWindow` says it: of the samples since the last reset the longest suffix that is short enough, and
of which no sample is too old for the newest. A sample that is dropped once is not missing later,
since it only gets older, and further from the end.

The speed is positive as soon as two samples are kept and there is a byte in them. On doubles that
is no matter of course: bytes and time are rounded, and so is their quotient, but none of them gets
near the ends of the format (`Decimal.Moderate`).

Whoever follows an upload keeps such a window, and so hears of every part unless the rest of the
file would take longer than a span can last (`Follower.HasHeard.exists_hear`).
-/

namespace ResumableUpload

namespace Throughput

/-! ## Histories -/

/-- A use of a throughput; a query is for its speed or for a remaining time. A sample carries the
time at which it is added, and waiting is the time between two uses. -/
inductive Use
  | add (sample : Sample)
  | reset (time : Nat)
  | query (time : Nat)

namespace Use

/-- When it happens. -/
def time : Use → Nat
  | .add sample => sample.time
  | .reset time => time
  | .query time => time

/-- The sample that a use adds. -/
def sample? : Use → Option Sample
  | .add sample => some sample
  | _ => none

def isReset : Use → Bool
  | .reset _ => true
  | _ => false

/-- What a use leaves; a query leaves all as it is. -/
def apply (t : Throughput) : Use → Throughput
  | .add sample => t.add sample
  | .reset _ => t.reset
  | .query _ => t

end Use

/-- The throughput after a history of uses. -/
def after (t : Throughput) (history : List Use) : Throughput := history.foldl Use.apply t

/-- The samples that were added since the last reset. -/
def sinceReset (history : List Use) : List Sample :=
  (history.rtakeWhile fun use => !use.isReset).filterMap Use.sample?

/-! ## The window -/

/-- Some of the samples that were added, up to the last one: at most so many, and each at most as
old as the window when the last one came in. -/
structure Fits (window : Span) (maxSamples : Nat) (added kept : List Sample) : Prop where
  isSuffix : kept <:+ added
  length_le : kept.length ≤ maxSamples
  recent : ∀ newest ∈ added.getLast?, ∀ s ∈ kept, newest.time ≤ s.time + window.nanoseconds

/-- Of the samples that were added the longest suffix that fits. -/
structure IsWindow (window : Span) (maxSamples : Nat) (added kept : List Sample) : Prop
    extends Fits window maxSamples added kept where
  longest : ∀ other, Fits window maxSamples added other → other <:+ kept

section

variable {t : Throughput} {window : Span} {maxSamples : Nat} {added kept : List Sample}
  {sample : Sample} {history : List Use} {use : Use}

theorem isWindow_nil (window : Span) (maxSamples : Nat) : IsWindow window maxSamples [] [] where
  isSuffix := List.suffix_rfl
  length_le := Nat.zero_le _
  recent := nofun
  longest _ h := h.isSuffix

/-- A suffix without an element to drop is a suffix of what is left. -/
theorem suffix_dropWhile {α : Type} {p : α → Bool} {l other : List α} (h : other <:+ l)
    (hp : ∀ x ∈ other, ¬p x) : other <:+ l.dropWhile p := by
  induction l with
  | nil => exact h
  | cons x l ih =>
    by_cases hx : p x
    · rw [List.dropWhile_cons_of_pos hx]
      refine ih ((List.suffix_cons_iff.mp h).resolve_left ?_)
      rintro rfl
      exact hp x List.mem_cons_self hx
    · rwa [List.dropWhile_cons_of_neg hx]

/-- Where times rise, what is dropped is all that is too old. -/
theorem recent_of_mem_dropWhile {samples : List Sample} {now window : Nat}
    (rising : samples.Pairwise (·.time < ·.time)) {s : Sample}
    (h : s ∈ samples.dropWhile fun s => window < now - s.time) : now ≤ s.time + window := by
  induction samples with
  | nil => cases h
  | cons x samples ih =>
    obtain ⟨later, rising⟩ := List.pairwise_cons.mp rising
    by_cases old : window < now - x.time
    · rw [List.dropWhile_cons_of_pos (by simpa using old)] at h
      exact ih rising h
    · rw [List.dropWhile_cons_of_neg (by simpa using old)] at h
      obtain rfl | h := List.mem_cons.mp h
      · omega
      · have := later s h
        omega

/-- What fits with one more sample is that sample behind what fitted before, or nothing. -/
theorem Fits.of_concat {other : List Sample} (h : Fits window maxSamples (added ++ [sample]) other)
    (rising : (added ++ [sample]).Pairwise (·.time < ·.time)) :
    other = [] ∨ ∃ before, other = before ++ [sample] ∧ Fits window maxSamples added before := by
  obtain rfl | ⟨before, hbefore, hsuffix⟩ := List.suffix_concat_iff.mp h.isSuffix
  · exact .inl rfl
  · refine .inr ⟨before, hbefore, hsuffix, ?_, ?_⟩
    · have := h.length_le
      rw [hbefore, List.length_append] at this
      omega
    · intro newest hnewest s hs
      have older : newest.time < sample.time :=
        (List.pairwise_append.mp rising).2.2 newest (List.mem_of_getLast? hnewest) sample
          List.mem_cons_self
      have := h.recent sample List.getLast?_concat s (hbefore ▸ List.mem_append_left _ hs)
      omega

/-- Adding a sample keeps the window. -/
theorem IsWindow.add (h : IsWindow t.window t.maxSamples added t.samples)
    (rising : (added ++ [sample]).Pairwise (·.time < ·.time)) :
    IsWindow t.window t.maxSamples (added ++ [sample]) (t.add sample).samples := by
  let old (s : Sample) : Bool := t.window.nanoseconds < sample.time - s.time
  let recent := (t.samples ++ [sample]).dropWhile old
  change IsWindow _ _ _ (recent.drop (recent.length - t.maxSamples))
  have all : t.samples ++ [sample] <:+ added ++ [sample] :=
    List.suffix_append_self_iff.mpr h.isSuffix
  have dropped : recent.drop (recent.length - t.maxSamples) <:+ recent := List.drop_suffix _ _
  refine ⟨⟨?_, ?_, ?_⟩, ?_⟩
  · exact dropped.trans ((List.dropWhile_suffix _).trans all)
  · rw [List.length_drop]
    omega
  · intro newest hnewest s hs
    obtain rfl : sample = newest := by simpa using hnewest
    exact recent_of_mem_dropWhile (rising.sublist all.sublist) (dropped.mem hs)
  · intro other hother
    -- nothing that fits was dropped before, nor is it dropped now
    have kept : other <:+ t.samples ++ [sample] := by
      obtain rfl | ⟨before, rfl, hbefore⟩ := hother.of_concat rising
      · exact List.nil_suffix
      · exact List.suffix_append_self_iff.mpr (h.longest before hbefore)
    have notOld : ∀ s ∈ other, ¬old s := by
      intro s hs
      have := hother.recent sample List.getLast?_concat s hs
      simp only [old, decide_eq_true_eq]
      omega
    have hrecent : other <:+ recent := suffix_dropWhile kept notOld
    refine List.suffix_of_suffix_length_le hrecent dropped ?_
    have := hrecent.length_le
    have := hother.length_le
    rw [List.length_drop]
    omega

/-! ## From one use to a history -/

theorem sinceReset_reset (history : List Use) (time : Nat) :
    sinceReset (history ++ [.reset time]) = [] := by
  rw [sinceReset, List.rtakeWhile_concat_neg _ _ _ (by simp [Use.isReset])]
  rfl

theorem sinceReset_concat (history : List Use) (h : use.isReset = false) :
    sinceReset (history ++ [use]) = sinceReset history ++ use.sample?.toList := by
  rw [sinceReset, List.rtakeWhile_concat_pos _ _ _ (by simp [h]), List.filterMap_append, sinceReset]
  rfl

theorem after_concat (t : Throughput) (history : List Use) (use : Use) :
    t.after (history ++ [use]) = use.apply (t.after history) := by
  rw [after, List.foldl_concat, after]

/-- The limits stay as they are. -/
theorem limits_after (t : Throughput) (history : List Use) :
    (t.after history).window = t.window ∧ (t.after history).maxSamples = t.maxSamples := by
  induction history using List.reverseRecOn with
  | nil => exact ⟨rfl, rfl⟩
  | append_singleton history use ih =>
    rw [after_concat]
    cases use <;> exact ih

/-- Where time advances, so it does from sample to sample. -/
theorem pairwise_sinceReset (advancing : history.Pairwise (·.time < ·.time)) :
    (sinceReset history).Pairwise (·.time < ·.time) := by
  refine (advancing.sublist (List.rtakeWhile_suffix _ _).sublist).filterMap _ ?_
  rintro (s | _ | _) (s' | _ | _) hlt _ hs _ hs' <;> cases hs <;> cases hs'
  exact hlt

/-- One more use keeps the window. -/
theorem IsWindow.apply (h : IsWindow t.window t.maxSamples (sinceReset history) t.samples)
    (advancing : (history ++ [use]).Pairwise (·.time < ·.time)) :
    IsWindow (use.apply t).window (use.apply t).maxSamples (sinceReset (history ++ [use]))
      (use.apply t).samples := by
  have rising := pairwise_sinceReset advancing
  cases use with
  | add sample =>
    rw [sinceReset_concat _ rfl] at rising ⊢
    exact h.add rising
  | reset time =>
    rw [sinceReset_reset]
    exact isWindow_nil _ _
  | query time =>
    rw [sinceReset_concat _ rfl]
    simpa [Use.sample?, Use.apply] using h

/-- After every history, the samples are the window of those added since the last reset. -/
theorem isWindow_after (hnil : t.samples = []) (advancing : history.Pairwise (·.time < ·.time)) :
    IsWindow (t.after history).window (t.after history).maxSamples (sinceReset history)
      (t.after history).samples := by
  induction history using List.reverseRecOn with
  | nil =>
    rw [after, List.foldl_nil, hnil]
    exact isWindow_nil _ _
  | append_singleton history use ih =>
    rw [after_concat]
    exact (ih (advancing.sublist (List.sublist_append_left _ _))).apply advancing

/-! ## Speed -/

/-- The samples of a window are no further apart than the window is long. -/
theorem elapsed_le (h : Fits t.window t.maxSamples added t.samples) :
    t.elapsed.nanoseconds ≤ t.window.nanoseconds := by
  unfold elapsed
  split
  · next first last hfirst hlast =>
    obtain ⟨before, hadded⟩ := h.isSuffix
    have hnewest : added.getLast? = some last := by
      rw [← hadded, List.getLast?_append, hlast, Option.some_or]
    have := h.recent last hnewest first (List.mem_of_head? hfirst)
    change last.time - first.time ≤ _
    omega
  · exact Nat.zero_le _

/-- Between two samples there is time. -/
theorem elapsed_pos (rising : t.samples.Pairwise (·.time < ·.time)) (two : 2 ≤ t.samples.length) :
    0 < t.elapsed.nanoseconds := by
  obtain ⟨first, rest, hsamples⟩ : ∃ first rest, t.samples = first :: rest :=
    List.exists_cons_of_length_pos (by omega)
  obtain rfl | ⟨middle, last, rfl⟩ := List.eq_nil_or_concat' rest
  · simp [hsamples] at two
  · have helapsed : t.elapsed = ⟨last.time - first.time⟩ := by
      rw [elapsed, hsamples, List.head?_cons, ← List.cons_append, List.getLast?_concat]
    rw [hsamples, List.pairwise_cons] at rising
    rw [helapsed]
    exact Nat.sub_pos_of_lt (rising.1 last (by simp))

theorem toUInt64_ne_zero {n : Nat} (hn : n ≠ 0) (hrange : n < 2 ^ 64) : n.toUInt64 ≠ 0 := by
  intro h
  have := congrArg UInt64.toNat h
  rw [Nat.toUInt64_eq, UInt64.toNat_ofNat_of_lt' hrange] at this
  exact hn this

open Decimal

/-- A time from a nanosecond to the longest span is a positive double of moderate size. -/
theorem moderate_inSeconds {s : Span} (hpos : 0 < s.nanoseconds) (hrange : s.seconds < 2 ^ 64) :
    Moderate 199 s.inSeconds.toModel.unpack := by
  have hnanos : s.nanos < 1000000000 := Nat.mod_lt _ (by decide)
  have unit : Moderate 65 (1000000000 : UInt64).toFloat.toModel.unpack :=
    moderate_toFloat (by decide)
  refine moderate_add_of_bounded (bounded_toFloat _)
    (bounded_div (bounded_toFloat _) unit (by decide)) (by decide) ?_
  by_cases hseconds : s.seconds = 0
  · have hne : s.nanos ≠ 0 := by
      unfold Span.seconds at hseconds
      unfold Span.nanos
      omega
    exact .inr (moderate_div (moderate_toFloat (toUInt64_ne_zero hne (by omega))) unit (by decide))
  · exact .inl (moderate_toFloat (toUInt64_ne_zero hseconds hrange))

/-- The speed is zero, or positive and of moderate size. -/
theorem bounded_speed (hrange : t.elapsed.seconds < 2 ^ 64) :
    Bounded 266 t.speed.bytesPerSecond.toModel.unpack := by
  unfold speed
  split
  · exact .inl unpack_zero
  · split
    · exact .inl unpack_zero
    · next hne =>
      have hseconds := moderate_inSeconds (Nat.pos_of_ne_zero hne) hrange
      exact bounded_div (bounded_toFloat _) hseconds (by decide)

/-- The speed is positive exactly if there are two samples, and a byte in them. -/
theorem speed_pos_iff (hbytes : t.bytes < 2 ^ 64) (hrange : t.elapsed.seconds < 2 ^ 64)
    (hpos : 2 ≤ t.samples.length → 0 < t.elapsed.nanoseconds) :
    0 < t.speed.bytesPerSecond ↔ 2 ≤ t.samples.length ∧ t.bytes ≠ 0 := by
  unfold speed
  by_cases two : t.samples.length < 2
  · rw [if_pos two]
    exact iff_of_false (not_pos_of_zero unpack_zero) (by omega)
  · have hseconds := moderate_inSeconds (hpos (by omega)) hrange
    rw [if_neg two, if_neg (by have := hpos (by omega); omega)]
    by_cases hzero : t.bytes = 0
    · rw [hzero]
      exact iff_of_false (not_pos_of_zero (unpack_zero_div rfl hseconds)) (by omega)
    · have hmoderate := moderate_toFloat (toUInt64_ne_zero hzero hbytes)
      exact iff_of_true (pos_of_moderate (moderate_div hmoderate hseconds (by decide)))
        ⟨by omega, hzero⟩

/-- As long as its quotient is not too large, a remaining time does not fail, and there is one
exactly if the speed is positive. -/
theorem remainingTime_eq_ok {remaining : Nat} (hrange : t.elapsed.seconds < 2 ^ 64)
    (hquotient : 0 < t.speed.bytesPerSecond →
      remaining.toUInt64.toFloat / t.speed.bytesPerSecond < 18446744073709551616) :
    ∃ time, t.remainingTime remaining = .ok time ∧
      (time.isSome ↔ 0 < t.speed.bytesPerSecond) := by
  have hspeed := bounded_speed hrange
  have hle := le_zero_iff_not_pos hspeed
  unfold remainingTime
  by_cases hpos : 0 < t.speed.bytesPerSecond
  · have hmoderate := hspeed.resolve_left fun hzero => not_pos_of_zero hzero hpos
    have hseconds := bounded_div (bounded_toFloat remaining.toUInt64) hmoderate (by decide)
    rw [if_neg (mt hle.mp (not_not_intro hpos)), Span.ofDouble,
      if_neg (not_neg_of_bounded hseconds), if_pos (hquotient hpos)]
    exact ⟨_, rfl, iff_of_true rfl hpos⟩
  · rw [if_pos (hle.mpr hpos)]
    exact ⟨none, rfl, iff_of_false Bool.false_ne_true hpos⟩

/-- A throughput of any limits, after any history in which time advances: its samples are the
longest suffix of those added since the last reset that has no more of them than allowed, and in
which none was too old for the window when the last one came in. As far as the window is a span of
64-bit seconds and the sum of the bytes a 64-bit number, the speed is positive exactly if there are
two samples and a byte in them; and as far as what remains, over a positive speed, is below 2 ^ 64
seconds, its time does not fail, and there is one exactly if the speed is positive. -/
theorem keeps_longest_window (window : Option Span) (maxSamples : Option Nat) (history : List Use)
    (advancing : history.Pairwise (·.time < ·.time)) :
    let limits := ofLimits window maxSamples
    let t := limits.after history
    IsWindow limits.window limits.maxSamples (sinceReset history) t.samples ∧
      (limits.window.seconds < 2 ^ 64 → t.bytes < 2 ^ 64 →
        (0 < t.speed.bytesPerSecond ↔ 2 ≤ t.samples.length ∧ t.bytes ≠ 0) ∧
        ∀ remaining : Nat, (0 < t.speed.bytesPerSecond →
            remaining.toUInt64.toFloat / t.speed.bytesPerSecond < 18446744073709551616) →
          ∃ time, t.remainingTime remaining = .ok time ∧
            (time.isSome ↔ 0 < t.speed.bytesPerSecond)) := by
  intro limits t
  have hwindow : IsWindow t.window t.maxSamples (sinceReset history) t.samples :=
    isWindow_after rfl advancing
  obtain ⟨hspan, hmax⟩ : t.window = limits.window ∧ t.maxSamples = limits.maxSamples :=
    limits_after limits history
  refine ⟨hspan ▸ hmax ▸ hwindow, fun hlong hbytes => ?_⟩
  have rising := (pairwise_sinceReset advancing).sublist hwindow.isSuffix.sublist
  have hrange : t.elapsed.seconds < 2 ^ 64 := by
    refine Nat.lt_of_le_of_lt (Nat.div_le_div_right (elapsed_le hwindow.toFits)) ?_
    exact hspan ▸ hlong
  exact ⟨speed_pos_iff hbytes hrange (elapsed_pos rising), fun _ => remainingTime_eq_ok hrange⟩

/-- At most two samples in five seconds. A reset drops the first one; the second is one too many
when the fourth comes in, and the third is too old when the fifth does. -/
theorem keeps_last_two :
    let history : List Use := [.add ⟨10, 0⟩, .reset 1, .add ⟨20, 1000000000⟩, .add ⟨30, 2000000000⟩,
      .add ⟨40, 3000000000⟩, .query 3500000000, .add ⟨50, 8000000000⟩]
    let t := (ofLimits (some (.ofSeconds 5)) (some 2)).after history
    t.samples = [⟨40, 3000000000⟩, ⟨50, 8000000000⟩] ∧
      IsWindow (.ofSeconds 5) 2 (sinceReset history) t.samples ∧ 0 < t.speed.bytesPerSecond ∧
      ∃ time, t.remainingTime 90 = .ok (some time) := by
  intro history t
  obtain ⟨hwindow, hspeed⟩ :=
    keeps_longest_window (some (.ofSeconds 5)) (some 2) history (by decide)
  obtain ⟨hpos, htime⟩ := hspeed (by decide) (by decide)
  have moving : 0 < t.speed.bytesPerSecond := hpos.mpr (by decide)
  obtain ⟨time, heq, hsome⟩ := htime 90 fun _ => by decide +kernel
  obtain ⟨time, rfl⟩ := Option.isSome_iff_exists.mp (hsome.mpr moving)
  exact ⟨by decide, hwindow, moving, time, heq⟩

end

end Throughput

/-! ## Who follows an upload -/

namespace Follower

open Throughput (Use isWindow_after elapsed_le limits_after after_concat remainingTime_eq_ok)

variable {f : Follower} {p : Progress} {time now : Nat}

/-- What the follower has heard by then, at advancing times, is a history of the throughput. -/
def HasHeard (f : Follower) (time : Nat) : Prop :=
  ∃ history : List Use, f.throughput = fresh.throughput.after history ∧
    history.Pairwise (·.time < ·.time) ∧ ∀ use ∈ history, use.time ≤ time

theorem hasHeard_fresh (time : Nat) : fresh.HasHeard time :=
  ⟨[], rfl, .nil, List.forall_mem_nil _⟩

theorem HasHeard.mono (h : f.HasHeard time) (hle : time ≤ now) : f.HasHeard now := by
  obtain ⟨history, hthroughput, advancing, hpast⟩ := h
  exact ⟨history, hthroughput, advancing, fun use hmem => Nat.le_trans (hpast use hmem) hle⟩

/-- A part is one more sample. -/
theorem HasHeard.note (h : f.HasHeard time) (p : Progress) (hlater : time < now) :
    (f.note p now).HasHeard now := by
  obtain ⟨history, hthroughput, advancing, hpast⟩ := h
  let use : Use := .add ⟨p.transferredBytes.toNat - f.transferred, now⟩
  have hearlier : ∀ earlier ∈ history, earlier.time < now :=
    fun earlier hmem => Nat.lt_of_le_of_lt (hpast earlier hmem) hlater
  refine ⟨history ++ [use], ?_, List.pairwise_append.2 ⟨advancing, List.pairwise_singleton _ _, ?_⟩,
    List.forall_mem_append.2 ⟨fun _ hmem => Nat.le_of_lt (hearlier _ hmem), ?_⟩⟩
  · rw [after_concat, ← hthroughput]
    rfl
  · exact fun earlier hmem => List.forall_mem_singleton.2 (hearlier earlier hmem)
  · exact List.forall_mem_singleton.2 (Nat.le_refl now)

/-- The samples of a follower are not far apart. -/
theorem HasHeard.elapsed_lt (h : f.HasHeard time) : f.throughput.elapsed.seconds < 2 ^ 64 := by
  obtain ⟨history, hthroughput, advancing, -⟩ := h
  have hwindow := isWindow_after (t := fresh.throughput) rfl advancing
  have hlimit := (limits_after fresh.throughput history).1
  rw [← hthroughput] at hwindow hlimit
  have hle := elapsed_le hwindow.toFits
  rw [hlimit] at hle
  exact Nat.lt_of_le_of_lt (Nat.div_le_div_right hle) (by decide)

/-- A follower breaks off only at a part behind which the rest of the file, at the speed of the last
parts, would take 2 ^ 64 seconds or longer. -/
theorem HasHeard.exists_hear (h : f.HasHeard time) (hlater : time < now)
    (hnear : 0 < (f.note p now).throughput.speed.bytesPerSecond →
      p.remainingBytes.toUInt64.toFloat / (f.note p now).throughput.speed.bytesPerSecond <
        18446744073709551616) :
    ∃ line g, f.hear p now = .ok (line, g) ∧ g.HasHeard now := by
  have hnote := h.note p hlater
  have hkept := h.mono (Nat.le_of_lt hlater)
  unfold hear
  cases p.status with
  | inProgress =>
    obtain ⟨remaining, hremaining, -⟩ := remainingTime_eq_ok hnote.elapsed_lt hnear
    obtain ⟨text, htext⟩ : ∃ text, (f.note p now).line p = .ok text := by
      rw [line, hremaining]
      exact ⟨_, rfl⟩
    refine ⟨some text, f.note p now, ?_, hnote⟩
    simp only [htext, Except.map]
  | committing => exact ⟨_, f, rfl, hkept⟩
  | pending => exact ⟨_, f, rfl, hkept⟩
  | committed => exact ⟨_, f, rfl, hkept⟩
  | aborted => exact ⟨_, f, rfl, hkept⟩

end Follower

end ResumableUpload
