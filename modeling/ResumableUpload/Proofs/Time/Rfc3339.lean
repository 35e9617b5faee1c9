import Mathlib.Algebra.Group.Nat.Defs
import Mathlib.Data.List.TakeWhile
import ResumableUpload.Proofs.Text.Numbers
import ResumableUpload.Time.Rfc3339

/-!
# Instants read back

The text of an instant has each number at its full width, so that reading takes just the digits of
that number (`number?_pad`). Step by step, every instant of the calendar is read back from its text
(`read?_write`), also one of a leap second, which is written as the sixtieth second.
-/

namespace ResumableUpload.Rfc3339

variable {width limit n : Nat} {rest : List Char}

/-! ## Digits -/

theorem pad_eq (width n : Nat) :
    pad width n = List.replicate (width - (Nat.toDigits 10 n).length) '0' ++ Nat.toDigits 10 n := by
  show List.replicate (width - (Nat.repr n).toList.length) '0' ++ (Nat.repr n).toList = _
  rw [Nat.toList_repr]

theorem isDigit_of_mem_pad {c : Char} (hc : c ∈ pad width n) : c.isDigit := by
  rw [pad_eq] at hc
  rcases List.mem_append.1 hc with hc | hc
  · rw [List.eq_of_mem_replicate hc]
    rfl
  · exact Nat.isDigit_of_mem_toDigits (by decide) (by decide) hc

theorem length_pad (hwidth : 0 < width) (hn : n < 10 ^ width) : (pad width n).length = width := by
  have hlength := (Nat.length_toDigits_le_iff (by decide) hwidth).2 hn
  rw [pad_eq, List.length_append, List.length_replicate]
  omega

/-- Zeros in front do not change what digits spell. -/
theorem foldl_pad (width n : Nat) :
    (pad width n).foldl (fun n c => n * 10 + (c.toNat - 48)) 0 = n := by
  have hzeros : ∀ count : Nat,
      (List.replicate count '0').foldl (fun n c => n * 10 + (c.toNat - 48)) 0 = 0 := by
    intro count
    induction count with
    | zero => rfl
    | succ count ih => exact ih
  have hdigits : Nat.ofDigitChars 10 (Nat.toDigits 10 n) 0 = n :=
    Nat.ofDigitChars_toDigits (by decide) (by decide)
  rw [pad_eq, List.foldl_append, hzeros]
  simp only [Nat.ofDigitChars, Nat.mul_comm 10] at hdigits
  exact hdigits

theorem pad_eq_cons (width n : Nat) : ∃ d ds, pad width n = d :: ds ∧ d.isDigit := by
  cases hpad : pad width n with
  | nil =>
    rw [pad_eq, List.append_eq_nil_iff] at hpad
    exact absurd hpad.2 Nat.toDigits_ne_nil
  | cons d ds => exact ⟨d, ds, rfl, isDigit_of_mem_pad (hpad ▸ List.mem_cons_self)⟩

/-- What stands behind the digits of a number is not taken for one of them. -/
theorem number?_pad (hlimit : (pad width n).length ≤ limit) (hrest : ∀ c ∈ rest.head?, ¬c.isDigit) :
    number? limit (pad width n ++ rest) = some (n, rest) := by
  have htake : ((pad width n ++ rest).take limit).takeWhile Char.isDigit = pad width n := by
    have hstop : (rest.take (limit - (pad width n).length)).takeWhile Char.isDigit = [] := by
      cases rest with
      | nil => rw [List.take_nil]; rfl
      | cons c rest =>
        cases limit - (pad width n).length with
        | zero => rfl
        | succ count => exact List.takeWhile_cons_of_neg (hrest c rfl)
    rw [List.take_append, List.take_of_length_le hlimit,
      List.takeWhile_append_of_pos fun c hc => isDigit_of_mem_pad hc, hstop, List.append_nil]
  have hsome : (pad width n).isEmpty = false := by
    obtain ⟨d, ds, hpad, -⟩ := pad_eq_cons width n
    rw [hpad]
    rfl
  rw [number?, htake]
  simp only [hsome, Bool.false_eq_true, if_false, foldl_pad, List.drop_left]

/-- Digits are not blank. -/
theorem trimLeft_digit {d : Char} (hd : d.isDigit) (rest : List Char) :
    Text.trimLeft (d :: rest) = d :: rest :=
  List.dropWhile_cons_of_neg (Bool.eq_false_iff.1 (Text.isBlank_of_isDigit hd))

theorem padded?_pad (hlimit : (pad width n).length ≤ limit)
    (hrest : ∀ c ∈ rest.head?, ¬c.isDigit) :
    padded? limit (pad width n ++ rest) = some (n, rest) := by
  have hnumber := number?_pad hlimit hrest
  obtain ⟨d, ds, hpad, hd⟩ := pad_eq_cons width n
  rw [hpad] at hnumber ⊢
  rw [padded?, List.cons_append, trimLeft_digit hd]
  exact hnumber

/-! ## Years, marks and fractions -/

/-- A year is read back, with or without a sign. -/
theorem year?_text (year : Int) (hrest : ∀ c ∈ rest.head?, ¬c.isDigit) :
    year? (yearText year ++ rest) = some (year, rest) := by
  rw [yearText]
  split
  next hrange =>
    have hnumber : number? 4 (pad 4 year.toNat ++ rest) = some (year.toNat, rest) :=
      number?_pad (Nat.le_of_eq (length_pad (by decide) (by omega))) hrest
    obtain ⟨d, ds, hpad, hd⟩ := pad_eq_cons 4 year.toNat
    rw [hpad, List.cons_append] at hnumber ⊢
    rw [year?, trimLeft_digit hd]
    split
    next heq => cases heq; cases hd
    next heq => cases heq; cases hd
    next =>
      rw [hnumber]
      exact congrArg (fun year => some (year, rest)) (Int.toNat_of_nonneg hrange.1)
  next =>
    have hnumber : number? (pad 4 year.natAbs ++ rest).length (pad 4 year.natAbs ++ rest) =
        some (year.natAbs, rest) :=
      number?_pad (by rw [List.length_append]; omega) hrest
    split
    next hpositive =>
      have hsigned : ∀ text, year? ('+' :: text) =
          (number? text.length text).map fun found => ((found.1 : Int), found.2) := fun _ => rfl
      rw [List.cons_append, hsigned, hnumber]
      exact congrArg (fun year => some (year, rest)) (Int.natAbs_of_nonneg hpositive)
    next hnegative =>
      have hsigned : ∀ text, year? ('-' :: text) =
          (number? text.length text).map fun found => (-(found.1 : Int), found.2) := fun _ => rfl
      have hvalue : -(year.natAbs : Int) = year := by omega
      rw [List.cons_append, hsigned, hnumber]
      exact congrArg (fun year => some (year, rest)) hvalue

/-- A mark that is no blank is taken as it stands. -/
theorem mark?_cons {mark : Char} (hmark : Text.isBlank mark = false) (rest : List Char) :
    mark? mark (mark :: rest) = some rest := by
  have htrim : Text.trimLeft (mark :: rest) = mark :: rest :=
    List.dropWhile_cons_of_neg (by rw [hmark]; exact Bool.false_ne_true)
  rw [mark?, htrim]
  exact if_pos rfl

theorem fraction?_pad (hwidth : 0 < width) (hlimit : width ≤ 9) (hn : n < 10 ^ width)
    (hrest : ∀ c ∈ rest.head?, ¬c.isDigit) :
    fraction? ('.' :: (pad width n ++ rest)) = some (n * 10 ^ (9 - width), rest) := by
  have hlength := length_pad hwidth hn
  have htaken : (pad width n ++ rest).length - rest.length = width := by
    rw [List.length_append, hlength, Nat.add_sub_cancel]
  have hdrop : rest.dropWhile Char.isDigit = rest := by
    cases rest with
    | nil => rfl
    | cons c rest => exact List.dropWhile_cons_of_neg (hrest c rfl)
  rw [fraction?, number?_pad (hlength.symm ▸ hlimit) hrest, Option.map_some]
  simp only [htaken, hdrop]
  rfl

/-- A fraction is read to the nanosecond. -/
theorem fraction?_text {nanos : Nat} (hnanos : nanos < 1000000000)
    (hrest : ∀ c ∈ rest.head?, ¬c.isDigit ∧ c ≠ '.') :
    fraction? (fractionText nanos ++ rest) = some (nanos, rest) := by
  have hdigit : ∀ c ∈ rest.head?, ¬c.isDigit := fun c hc => (hrest c hc).1
  rw [fractionText]
  split
  next hzero =>
    rw [hzero, List.nil_append, fraction?]
    rintro r rfl
    exact (hrest '.' rfl).2 rfl
  split
  next hmillis =>
    have hback : nanos / 1000000 * 10 ^ (9 - 3) = nanos := by omega
    rw [List.cons_append, fraction?_pad (by decide) (by decide) (by omega) hdigit, hback]
  split
  next hmicros =>
    have hback : nanos / 1000 * 10 ^ (9 - 6) = nanos := by omega
    rw [List.cons_append, fraction?_pad (by decide) (by decide) (by omega) hdigit, hback]
  next =>
    rw [List.cons_append, fraction?_pad (by decide) (by decide) hnanos hdigit]
    rw [Nat.sub_self, Nat.pow_zero, Nat.mul_one]

/-! ## Instants -/

/-- A month has at most 31 days. -/
theorem daysInMonth_le (year : Int) (month : Nat) : Date.daysInMonth year month ≤ 31 := by
  rw [Date.daysInMonth]
  split
  · split <;> omega
  · split <;> omega

/-- The numbers of an instant are below the bounds of their places. -/
theorem bounds_of_isValid {t : Instant} (hvalid : t.isValid) :
    t.date.month ≤ 12 ∧ t.date.day ≤ 31 ∧ t.hour < 24 ∧ t.minute < 60 ∧ t.second < 60 ∧
      t.nanos < 2000000000 ∧ (t.nanos < 1000000000 ∨ t.second = 59) := by
  have hdays := daysInMonth_le t.date.year t.date.month
  simp only [Instant.isValid, Date.isValid, Bool.and_eq_true, Bool.or_eq_true,
    decide_eq_true_eq] at hvalid
  obtain ⟨⟨⟨⟨⟨⟨⟨⟨-, hmonth⟩, -⟩, hday⟩, hhour⟩, hminute⟩, hsecond⟩, hnanos⟩, hleap⟩ := hvalid
  exact ⟨hmonth, Nat.le_trans hday hdays, hhour, hminute, hsecond, hnanos, hleap⟩

/-- Clocks that show UTC show the instant itself. -/
theorem ofLocal?_zero {t : Instant} (hvalid : t.isValid) : t.ofLocal? 0 = some t := by
  obtain ⟨-, -, hhour, hminute, -⟩ := bounds_of_isValid hvalid
  have hdate : t.date.isValid = true := by
    simp only [Instant.isValid, Bool.and_eq_true] at hvalid
    exact hvalid.1.1.1.1.1
  have hinDay : (((t.hour : Int) * 60 + t.minute - 0) % 1440).toNat = t.hour * 60 + t.minute := by
    omega
  have hbefore : ¬((t.hour : Int) * 60 + t.minute - 0 < 0) := by omega
  have hafter : ¬(1440 ≤ (t.hour : Int) * 60 + t.minute - 0) := by omega
  have hours : (t.hour * 60 + t.minute) / 60 = t.hour := by omega
  have minutes : (t.hour * 60 + t.minute) % 60 = t.minute := by omega
  simp only [Instant.ofLocal?, hbefore, hafter, if_false, hdate, if_true, hinDay, hours, minutes]

/-- One step of reading, and then the others. -/
theorem bind_of_eq_some {α β : Type} {x : Option α} {a : α} {f : α → Option β} {y : Option β}
    (h : x = some a) (hrest : f a = y) : (x >>= f) = y := by
  subst h
  exact hrest

/-- What stands behind the seconds is no digit. -/
theorem fractionText_head (nanos : Nat) :
    ∀ c ∈ (fractionText nanos ++ ['Z']).head?, ¬c.isDigit := by
  rw [fractionText]
  split
  · rintro _ ⟨⟩; decide
  split
  · rintro _ ⟨⟩; decide
  split
  · rintro _ ⟨⟩; decide
  · rintro _ ⟨⟩; decide

/-- The text of an instant shows a second and a fraction of it; in a leap second that is one second
more, and a second less of nanoseconds. -/
theorem exists_shown {t : Instant} (hvalid : t.isValid) : ∃ shown fraction,
    (write t).toList =
      yearText t.date.year ++ '-' :: (pad 2 t.date.month ++ '-' :: (pad 2 t.date.day ++ 'T' ::
        (pad 2 t.hour ++ ':' :: (pad 2 t.minute ++ ':' :: (pad 2 shown ++
          (fractionText fraction ++ ['Z'])))))) ∧
    shown < 10 ^ 2 ∧ fraction < 1000000000 ∧
    (if shown = 60 then ⟨t.date, t.hour, t.minute, 59, fraction + 1000000000⟩
      else ⟨t.date, t.hour, t.minute, shown, fraction⟩ : Instant) = t := by
  obtain ⟨-, -, -, -, hsecond, hnanos, hleap⟩ := bounds_of_isValid hvalid
  by_cases hlate : 1000000000 ≤ t.nanos
  · have hlast : t.second = 59 := by omega
    refine ⟨t.second + 1, t.nanos - 1000000000, ?_, by omega, by omega, ?_⟩
    · simp only [write, hlate, if_true, String.toList_ofList, List.append_assoc, List.cons_append]
    · rw [if_pos (by omega), ← hlast, Nat.sub_add_cancel hlate]
  · refine ⟨t.second, t.nanos, ?_, by omega, by omega, ?_⟩
    · simp only [write, hlate, if_false, String.toList_ofList, List.append_assoc, List.cons_append]
    · rw [if_neg (by omega)]

/-- Two digits are read up to the mark behind them. -/
theorem padded?_mark {n : Nat} {mark : Char} (hn : n < 10 ^ 2) (hmark : mark.isDigit = false)
    (rest : List Char) : padded? 2 (pad 2 n ++ mark :: rest) = some (n, mark :: rest) := by
  refine padded?_pad (Nat.le_of_eq (length_pad (by decide) hn)) ?_
  rintro _ ⟨⟩
  rw [hmark]
  exact Bool.false_ne_true

/-- Every instant of the calendar is read back from its text. -/
theorem read?_write {t : Instant} (hvalid : t.isValid) : read? (write t) = some t := by
  obtain ⟨hmonth, hday, hhour, hminute, -⟩ := bounds_of_isValid hvalid
  obtain ⟨shown, fraction, htext, hshown, hfraction, hback⟩ := exists_shown hvalid
  have hdash : Text.isBlank '-' = false := by decide
  have hcolon : Text.isBlank ':' = false := by decide
  have hyear : ∀ rest, ∀ c ∈ ('-' :: rest).head?, ¬c.isDigit := by
    rintro rest _ ⟨⟩
    decide
  have hsecond := padded?_pad (Nat.le_of_eq (length_pad (by decide) hshown))
    (fractionText_head fraction)
  have hzone : ∀ c ∈ ['Z'].head?, ¬c.isDigit ∧ c ≠ '.' := by
    rintro _ ⟨⟩
    decide
  rw [read?, htext]
  -- Each number is read up to the mark behind it, and then the mark is.
  refine bind_of_eq_some (year?_text t.date.year (hyear _)) ?_
  refine bind_of_eq_some (mark?_cons hdash _) ?_
  refine bind_of_eq_some (padded?_mark (by omega) rfl _) ?_
  refine bind_of_eq_some (mark?_cons hdash _) ?_
  refine bind_of_eq_some (padded?_mark (by omega) rfl _) ?_
  refine bind_of_eq_some rfl ?_
  refine bind_of_eq_some (padded?_mark (by omega) rfl _) ?_
  refine bind_of_eq_some (mark?_cons hcolon _) ?_
  refine bind_of_eq_some (padded?_mark (by omega) rfl _) ?_
  refine bind_of_eq_some (mark?_cons hcolon _) ?_
  refine bind_of_eq_some hsecond ?_
  refine bind_of_eq_some (fraction?_text hfraction hzone) ?_
  refine bind_of_eq_some rfl ?_
  simp only [hback, hvalid]
  exact ofLocal?_zero hvalid

end ResumableUpload.Rfc3339
