import ResumableUpload.Json.Number
import ResumableUpload.Json.Skip
import ResumableUpload.Proofs.Json.Grammar

/-!
# Numbers of JSON texts

A number is read up to where it ends: what stands behind it does not matter, as long as it stops it
(`magnitude_append`). The same holds of skipping one (`Skip.number_append`). The digits of an
integer of 64 bits are read as that integer (`magnitude_toDigits`).
-/

namespace ResumableUpload.Json

/-- A text that does not begin with a digit. -/
def NoDigit (text : List Char) : Prop := ∀ c ∈ text.head?, ¬c.isDigit

namespace Stops

variable {c : Char} {rest : List Char}

theorem eq_stop (h : Stops (c :: rest)) :
    c = ' ' ∨ c = '\t' ∨ c = '\r' ∨ c = '\n' ∨ c = ',' ∨ c = ']' ∨ c = '\x7d' := by
  rcases h c rfl with hblank | hrest
  · simp only [isBlank, Bool.or_eq_true, decide_eq_true_eq] at hblank
    grind
  · grind

/-- What stops a number is no part of one. -/
theorem not_of_number (h : Stops (c :: rest)) :
    ¬c.isDigit ∧ c ≠ '.' ∧ c ≠ 'e' ∧ c ≠ 'E' := by
  rcases h.eq_stop with rfl | rfl | rfl | rfl | rfl | rfl | rfl <;> decide

theorem noDigit {rest : List Char} (h : Stops rest) : NoDigit rest := by
  cases rest with
  | nil => exact nofun
  | cons c rest =>
    rintro _ ⟨⟩
    exact h.not_of_number.1

end Stops

theorem dropWhile_digits {ds rest : List Char} (hds : Digits ds) (h : NoDigit rest) :
    (ds ++ rest).dropWhile Char.isDigit = rest := by
  rw [List.dropWhile_append_of_pos hds]
  cases rest with
  | nil => rfl
  | cons c rest =>
    exact List.dropWhile_cons_of_neg (h c rfl)

/-- What comes when the fraction is over is no part of one. -/
theorem ExponentText.not_of_fraction {exponent rest : List Char} (h : ExponentText exponent)
    (hrest : Stops rest) : ∀ c ∈ (exponent ++ rest).head?, ¬c.isDigit ∧ c ≠ '.' := by
  cases h with
  | none =>
    cases rest with
    | nil => exact nofun
    | cons c rest =>
      rintro _ ⟨⟩
      exact ⟨hrest.not_of_number.1, hrest.not_of_number.2.1⟩
  | some he =>
    rintro _ ⟨⟩
    rcases he with rfl | rfl <;> decide

theorem ExponentText.noDigit {exponent rest : List Char} (h : ExponentText exponent)
    (hrest : Stops rest) : NoDigit (exponent ++ rest) :=
  fun c hc => (h.not_of_fraction hrest c hc).1

/-- What comes when the whole part is over is no digit. -/
theorem FractionText.noDigit {fraction exponent rest : List Char} (h : FractionText fraction)
    (hexponent : ExponentText exponent) (hrest : Stops rest) :
    NoDigit (fraction ++ (exponent ++ rest)) := by
  cases h with
  | none => exact hexponent.noDigit hrest
  | some =>
    rintro _ ⟨⟩
    decide

theorem stops_nil : Stops [] := nofun

/-! ## Reading -/

namespace Number

/-- A step of reading takes a whole text, whatever stands behind it. -/
def Takes (read : List Char → Reading Number) (text : List Char) : Prop :=
  ∀ rest, Stops rest → read (text ++ rest) = (read text).map fun (n, _) => (n, rest)

variable {negative : Bool} {significand : Nat} {start : Int}

theorem takes_exponentDigits {down : Bool} {e : Nat} {ds : List Char} (hds : Digits ds) :
    Takes (exponentDigits negative significand start down e) ds := by
  intro rest hrest
  induction ds generalizing e with
  | nil =>
    have hfinish : exponentDigits negative significand start down e rest =
        exponentDigits.finish negative significand start down e rest := by
      cases rest with
      | nil => rw [exponentDigits]
      | cons c rest =>
        rw [exponentDigits, if_neg hrest.not_of_number.1]
    rw [List.nil_append, hfinish, exponentDigits, exponentDigits.finish, exponentDigits.finish]
    cases scale negative significand (if down = true then start - e else start + e) <;> rfl
  | cons d ds ih =>
    obtain ⟨hd, hds⟩ := List.forall_mem_cons.1 hds
    rw [List.cons_append, exponentDigits, exponentDigits, if_pos hd]
    simp only [if_pos hd]
    split
    · split
      · rfl
      · rw [dropWhile_digits hds hrest.noDigit]
        rfl
    · exact ih hds

theorem takes_exponent {sign ds : List Char} {d : Char}
    (hsign : sign = [] ∨ sign = ['+'] ∨ sign = ['-']) (hd : d.isDigit) (hds : Digits ds) :
    Takes (exponent negative significand start) (sign ++ d :: ds) := by
  obtain ⟨down, hdown⟩ : ∃ down, ∀ text,
      exponent negative significand start (sign ++ d :: text) =
        exponentDigits negative significand start down (digitValue d) text := by
    rcases hsign with rfl | rfl | rfl
    · have hplus : d ≠ '+' := by rintro rfl; cases hd
      have hminus : d ≠ '-' := by rintro rfl; cases hd
      refine ⟨false, fun text => ?_⟩
      simp [exponent, hd, hplus, hminus]
    · exact ⟨false, fun text => if_pos hd⟩
    · exact ⟨true, fun text => if_pos hd⟩
  intro rest hrest
  rw [List.append_assoc, List.cons_append, hdown, hdown]
  exact takes_exponentDigits hds rest hrest

theorem takes_doubleTail {exponent : List Char} (h : ExponentText exponent) :
    Takes (doubleTail negative significand start) exponent := by
  intro rest hrest
  cases h with
  | none =>
    have htail : doubleTail negative significand start rest =
        (scale negative significand start).map fun n => (n, rest) := by
      cases rest with
      | nil => rfl
      | cons c rest =>
        obtain ⟨-, -, he, hE⟩ := hrest.not_of_number
        rw [doubleTail, if_neg (not_or.2 ⟨he, hE⟩)]
    rw [List.nil_append, htail, doubleTail]
    cases scale negative significand start <;> rfl
  | some he hsign hd hds =>
    simp only [List.cons_append, doubleTail, if_pos he]
    exact takes_exponent hsign hd hds rest hrest

/-- A fraction that is no fraction, and is read on as what may follow one. -/
theorem fractionDigits_of_noDigit {text : List Char} (h : NoDigit text) :
    fractionDigits negative significand start text =
      doubleTail negative significand start text := by
  cases text with
  | nil => rfl
  | cons c rest => rw [fractionDigits, if_neg (h c rfl)]

theorem takes_fractionDigits {ds exponent : List Char} (hds : Digits ds)
    (h : ExponentText exponent) :
    Takes (fractionDigits negative significand start) (ds ++ exponent) := by
  intro rest hrest
  have hstop : NoDigit exponent := List.append_nil exponent ▸ h.noDigit (show Stops [] from nofun)
  induction ds generalizing significand start with
  | nil =>
    rw [List.nil_append, fractionDigits_of_noDigit (h.noDigit hrest),
      fractionDigits_of_noDigit hstop]
    exact takes_doubleTail h rest hrest
  | cons d ds ih =>
    obtain ⟨hd, hds⟩ := List.forall_mem_cons.1 hds
    simp only [List.cons_append, fractionDigits, if_pos hd]
    split
    · rw [List.append_assoc, dropWhile_digits hds (h.noDigit hrest), dropWhile_digits hds hstop]
      exact takes_doubleTail h rest hrest
    · exact ih hds

theorem takes_fraction {d : Char} {ds exponent : List Char} (hd : d.isDigit) (hds : Digits ds)
    (h : ExponentText exponent) :
    Takes (Number.fraction negative significand start) (d :: (ds ++ exponent)) := by
  intro rest hrest
  simp only [List.cons_append, Number.fraction, if_pos hd]
  exact takes_fractionDigits (List.forall_mem_cons.2 ⟨hd, hds⟩) h rest hrest

theorem takes_wholeTail {fraction exponent : List Char} (hfraction : FractionText fraction)
    (hexponent : ExponentText exponent) :
    Takes (wholeTail negative significand) (fraction ++ exponent) := by
  intro rest hrest
  cases hfraction with
  | some hd hds => exact takes_fraction hd hds hexponent rest hrest
  | none =>
    rw [List.nil_append]
    cases hexponent with
    | some he hsign hd hds =>
      rcases he with rfl | rfl
      · exact takes_exponent hsign hd hds rest hrest
      · exact takes_exponent hsign hd hds rest hrest
    | none =>
      have htail : ∀ text, Stops text → wholeTail negative significand text =
          if ¬ negative then .ok (.integer significand, text)
          else if significand = 0 ∨ 9223372036854775808 < significand then
            .ok (.double (-significand.toUInt64.toFloat), text)
          else .ok (.integer (-(significand : Int)), text) := by
        intro text htext
        rw [wholeTail]
        · rintro r rfl
          exact htext.not_of_number.2.1 rfl
        · rintro r rfl
          exact htext.not_of_number.2.2.1 rfl
        · rintro r rfl
          exact htext.not_of_number.2.2.2 rfl
      rw [List.nil_append, htail rest hrest, htail [] nofun]
      split
      · rfl
      · split <;> rfl

theorem takes_surplusDigits {count : Nat} {ds fraction exponent : List Char} (hds : Digits ds)
    (hfraction : FractionText fraction) (hexponent : ExponentText exponent) :
    Takes (surplusDigits negative significand count) (ds ++ (fraction ++ exponent)) := by
  intro rest hrest
  induction ds generalizing count with
  | cons d ds ih =>
    obtain ⟨hd, hds⟩ := List.forall_mem_cons.1 hds
    simp only [List.cons_append, surplusDigits, if_pos hd]
    exact ih hds
  | nil =>
    rw [List.nil_append]
    cases hfraction with
    | some hd hds => exact takes_fraction hd hds hexponent rest hrest
    | none =>
      have htail : ∀ {text : List Char}, (∀ c ∈ text.head?, ¬c.isDigit ∧ c ≠ '.') →
          surplusDigits negative significand count text =
            doubleTail negative significand count text := by
        intro text htext
        cases text with
        | nil => rfl
        | cons c r =>
          obtain ⟨hdigit, hpoint⟩ := htext c rfl
          rw [surplusDigits, if_neg hdigit, if_neg hpoint]
      have hstop := hexponent.not_of_fraction stops_nil
      rw [List.append_nil] at hstop
      rw [List.nil_append, htail (hexponent.not_of_fraction hrest), htail hstop]
      exact takes_doubleTail hexponent rest hrest

theorem takes_wholeDigits {ds fraction exponent : List Char} (hds : Digits ds)
    (hfraction : FractionText fraction) (hexponent : ExponentText exponent) :
    Takes (wholeDigits negative significand) (ds ++ (fraction ++ exponent)) := by
  intro rest hrest
  induction ds generalizing significand with
  | cons d ds ih =>
    obtain ⟨hd, hds⟩ := List.forall_mem_cons.1 hds
    simp only [List.cons_append, wholeDigits, if_pos hd]
    split
    · exact takes_surplusDigits hds hfraction hexponent rest hrest
    · exact ih hds
  | nil =>
    have htail : ∀ {text : List Char}, NoDigit text →
        wholeDigits negative significand text = wholeTail negative significand text := by
      intro text htext
      cases text with
      | nil => rfl
      | cons c r => rw [wholeDigits, if_neg (htext c rfl)]
    have hstop := hfraction.noDigit hexponent stops_nil
    rw [List.append_nil] at hstop
    rw [List.nil_append, htail hstop, List.append_assoc,
      htail (hfraction.noDigit hexponent hrest), ← List.append_assoc]
    exact takes_wholeTail hfraction hexponent rest hrest

/-- A number is read up to its end, whatever stands behind it. -/
theorem magnitude_append {text : List Char} (h : MagnitudeText text) :
    Takes (magnitude negative) text := by
  intro rest hrest
  cases h with
  | @parts whole fraction exponent hwhole hfraction hexponent =>
    cases hwhole with
    | zero =>
      have htail : ∀ {text : List Char}, NoDigit text →
          magnitude negative ('0' :: text) = wholeTail negative 0 text := by
        intro text htext
        cases text with
        | nil => rfl
        | cons c r => simp only [magnitude, if_neg (htext c rfl)]
      have hstop := hfraction.noDigit hexponent stops_nil
      rw [List.append_nil] at hstop
      have hstop' := hfraction.noDigit hexponent hrest
      rw [← List.append_assoc] at hstop'
      rw [List.singleton_append, List.cons_append, htail hstop, htail hstop']
      exact takes_wholeTail hfraction hexponent rest hrest
    | @digits d ds hd hzero hds =>
      have hdigits : ∀ {text : List Char}, magnitude negative (d :: text) =
          wholeDigits negative (digitValue d) text := by
        intro text
        rw [magnitude, if_pos hd]
        exact fun h => hzero h
      rw [List.cons_append, List.cons_append, hdigits, hdigits]
      exact takes_wholeDigits hds hfraction hexponent rest hrest

end Number

/-! ## Integers -/

theorem digits_toDigits (n : Nat) : Digits (Nat.toDigits 10 n) := fun _ hc =>
  Nat.isDigit_of_mem_toDigits (by decide) (by decide) hc

/-- No zero stands before the other digits of a number. -/
theorem wholeText_toDigits (n : Nat) : WholeText (Nat.toDigits 10 n) := by
  induction n using Nat.strongRecOn with
  | ind n ih =>
    have hdigits := digits_toDigits n
    by_cases hsmall : n < 10
    · have hdigit : ∀ m < 10, m.digitChar = '0' ∨ m.digitChar.isDigit ∧ m.digitChar ≠ '0' := by
        decide
      rw [Nat.toDigits_of_lt_base hsmall]
      rcases hdigit n hsmall with hzero | ⟨hd, hzero⟩
      · exact hzero ▸ .zero
      · exact .digits hd hzero nofun
    · have hsplit := Nat.toDigits_of_base_le (b := 10) (by decide) (Nat.not_lt.1 hsmall)
      have hfront := ih (n / 10) (by omega)
      have hvalue : Nat.ofDigitChars 10 (Nat.toDigits 10 (n / 10)) 0 = n / 10 :=
        Nat.ofDigitChars_toDigits (by decide) (by decide)
      rw [hsplit] at hdigits ⊢
      generalize Nat.toDigits 10 (n / 10) = front at hfront hvalue hdigits
      cases hfront with
      | zero =>
        have hzero : n / 10 = 0 := hvalue.symm
        omega
      | digits hd hzero _ => exact .digits hd hzero (List.forall_mem_cons.1 hdigits).2

/-- Digits only make a number larger. -/
theorem le_ofDigitChars (ds : List Char) (s : Nat) : s ≤ Nat.ofDigitChars 10 ds s := by
  induction ds generalizing s with
  | nil => exact Nat.le_refl s
  | cons d ds ih =>
    rw [Nat.ofDigitChars_cons]
    exact Nat.le_trans (by omega) (ih _)

namespace Number

/-- Digits are taken into the significand as long as it fits. -/
theorem wholeDigits_eq {negative : Bool} {ds : List Char} (hds : Digits ds) {s : Nat}
    (hfits : Nat.ofDigitChars 10 ds s ≤ maxSignificand) :
    wholeDigits negative s ds = wholeTail negative (Nat.ofDigitChars 10 ds s) [] := by
  induction ds generalizing s with
  | nil => rfl
  | cons d ds ih =>
    obtain ⟨hd, hds⟩ := List.forall_mem_cons.1 hds
    rw [Nat.ofDigitChars_cons, Nat.mul_comm] at hfits ⊢
    have hroom : ¬maxSignificand < s * 10 + digitValue d :=
      Nat.not_lt.2 (Nat.le_trans (le_ofDigitChars ds _) hfits)
    simp only [wholeDigits, if_pos hd, if_neg hroom]
    exact ih hds hfits

/-- The digits of a number that fits are read as that number. -/
theorem magnitude_toDigits (negative : Bool) {n : Nat} (hfits : n ≤ maxSignificand) :
    magnitude negative (Nat.toDigits 10 n) = wholeTail negative n [] := by
  have hvalue : Nat.ofDigitChars 10 (Nat.toDigits 10 n) 0 = n :=
    Nat.ofDigitChars_toDigits (by decide) (by decide)
  have hdigits := digits_toDigits n
  have hwhole := wholeText_toDigits n
  generalize Nat.toDigits 10 n = text at hvalue hdigits hwhole
  subst hvalue
  cases hwhole with
  | zero => rfl
  | @digits d ds hd hzero hds =>
    rw [Nat.ofDigitChars_cons, Nat.mul_zero, Nat.zero_add] at hfits ⊢
    rw [magnitude, if_pos hd]
    · exact wholeDigits_eq hds hfits
    · exact fun h => hzero h

end Number

/-! ## Skipping -/

namespace Skip

theorem afterFraction_append {exponent rest : List Char} (h : ExponentText exponent)
    (hrest : Stops rest) : afterFraction (exponent ++ rest) = .ok rest := by
  cases h with
  | none =>
    rw [List.nil_append, afterFraction]
    · rintro r rfl
      exact hrest.not_of_number.2.2.1 rfl
    · rintro r rfl
      exact hrest.not_of_number.2.2.2 rfl
  | @some e sign d ds he hsign hd hds =>
    have hexponent : Skip.exponent (sign ++ d :: ds ++ rest) = .ok rest := by
      rcases hsign with rfl | rfl | rfl
      · have hplus : d ≠ '+' := by rintro rfl; cases hd
        have hminus : d ≠ '-' := by rintro rfl; cases hd
        simp [exponent, hd, hplus, hminus, dropWhile_digits hds hrest.noDigit]
      · simp [exponent, hd, dropWhile_digits hds hrest.noDigit]
      · simp [exponent, hd, dropWhile_digits hds hrest.noDigit]
    rcases he with rfl | rfl
    · exact hexponent
    · exact hexponent

theorem afterWhole_append {fraction exponent rest : List Char} (hfraction : FractionText fraction)
    (hexponent : ExponentText exponent) (hrest : Stops rest) :
    afterWhole (fraction ++ (exponent ++ rest)) = .ok rest := by
  cases hfraction with
  | none =>
    rw [List.nil_append, afterWhole]
    · exact afterFraction_append hexponent hrest
    · rintro r hr
      exact (hexponent.not_of_fraction hrest '.' (by rw [hr]; rfl)).2 rfl
  | some hd hds =>
    simp only [List.cons_append, afterWhole, if_pos hd,
      dropWhile_digits hds (hexponent.noDigit hrest)]
    exact afterFraction_append hexponent hrest

/-- A number is skipped up to its end. -/
theorem number_append {text rest : List Char} (h : MagnitudeText text) (hrest : Stops rest) :
    number (text ++ rest) = .ok rest := by
  cases h with
  | @parts whole fraction exponent hwhole hfraction hexponent =>
    have hwholeTail := afterWhole_append hfraction hexponent hrest
    have hstop := hfraction.noDigit hexponent hrest
    rw [List.append_assoc, List.append_assoc]
    cases hwhole with
    | zero =>
      rw [List.singleton_append]
      cases htext : fraction ++ (exponent ++ rest) with
      | nil =>
        rw [htext] at hwholeTail
        exact hwholeTail
      | cons c r =>
        rw [htext] at hwholeTail hstop
        simp only [number, if_neg (hstop c rfl)]
        exact hwholeTail
    | digits hd hzero hds =>
      rw [List.cons_append, number, if_pos hd, dropWhile_digits hds hstop]
      · exact hwholeTail
      · exact fun h => hzero h

end Skip

end ResumableUpload.Json
