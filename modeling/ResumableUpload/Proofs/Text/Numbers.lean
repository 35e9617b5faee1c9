import ResumableUpload.Text.Basic

/-!
# Numbers between blanks

What is left of a text without the blanks at its ends, from both sides: nothing but blanks is cut
off (`Text.exists_trimChars_eq`), and of the blanks around a word none is left
(`Text.trimChars_append`). Decimal digits are no blanks, and are read as the number that they are
the digits of (`Text.number?_of_digits`).
-/

namespace ResumableUpload.Text

variable {c : Char} {cs left core right : List Char} {base sum n : Nat}

/-! ## Cutting off blanks -/

/-- A digit is not blank. -/
theorem isBlank_of_isDigit (hdigit : c.isDigit) : isBlank c = false := by
  have hrange : 48 ≤ c.toNat ∧ c.toNat ≤ 57 := Char.isDigit_iff_toNat.1 hdigit
  simp [isBlank, blankRanges]
  omega

/-- Only blanks are cut off at the left. -/
theorem exists_trimLeft_eq (cs : List Char) :
    ∃ left, cs = left ++ trimLeft cs ∧ ∀ c ∈ left, isBlank c :=
  ⟨cs.takeWhile isBlank, List.takeWhile_append_dropWhile.symm,
    List.all_eq_true.1 List.all_takeWhile⟩

/-- Only blanks are cut off. -/
theorem exists_trimChars_eq (cs : List Char) :
    ∃ left right, cs = left ++ trimChars cs ++ right ∧ ∀ c ∈ left ++ right, isBlank c := by
  obtain ⟨left, hleft, hblank⟩ := exists_trimLeft_eq cs
  obtain ⟨right, hright, hblank'⟩ := exists_trimLeft_eq (trimLeft cs).reverse
  have hcore : trimLeft cs = trimChars cs ++ right.reverse := by
    rw [trimChars, ← List.reverse_append, ← hright, List.reverse_reverse]
  refine ⟨left, right.reverse, ?_, List.forall_mem_append.2 ⟨hblank, by simpa using hblank'⟩⟩
  rw [List.append_assoc, ← hcore, ← hleft]

/-- All blanks to the left of a word are cut off. -/
theorem trimLeft_append (hleft : ∀ c ∈ left, isBlank c) (hcore : ∀ c ∈ core, isBlank c = false)
    (hsome : core ≠ []) : trimLeft (left ++ (core ++ right)) = core ++ right := by
  obtain ⟨c, rest, rfl⟩ := List.exists_cons_of_ne_nil hsome
  have hfirst : ¬isBlank c = true := by
    rw [hcore c List.mem_cons_self]
    exact Bool.false_ne_true
  rw [trimLeft, List.dropWhile_append_of_pos hleft]
  exact List.dropWhile_cons_of_neg hfirst

/-- All blanks around a word are cut off. -/
theorem trimChars_append (hblank : ∀ c ∈ left ++ right, isBlank c)
    (hcore : ∀ c ∈ core, isBlank c = false) (hsome : core ≠ []) :
    trimChars (left ++ core ++ right) = core := by
  obtain ⟨hleft, hright⟩ := List.forall_mem_append.1 hblank
  have hback : trimLeft (right.reverse ++ (core.reverse ++ [])) = core.reverse ++ [] :=
    trimLeft_append (by simpa using hright) (by simpa using hcore) (by simpa using hsome)
  rw [List.append_nil] at hback
  rw [trimChars, List.append_assoc, trimLeft_append hleft hcore hsome, List.reverse_append, hback,
    List.reverse_reverse]

/-! ## Reading digits -/

/-- A decimal digit has its value. -/
theorem digitOf?_of_isDigit (hdigit : c.isDigit) : digitOf? 10 c = some (c.toNat - 48) := by
  have hrange : 48 ≤ c.toNat ∧ c.toNat ≤ 57 := Char.isDigit_iff_toNat.1 hdigit
  have hchar : '0' ≤ c ∧ c ≤ '9' := hrange
  rw [digitOf?, digitValue?, if_pos hchar]
  exact Option.filter_eq_some_iff.2 ⟨rfl, decide_eq_true (by omega)⟩

theorem numberFrom?_of_digits (h : ∀ c ∈ cs, c.isDigit) (sum : Nat) :
    numberFrom? 10 sum cs = some (Nat.ofDigitChars 10 cs sum) := by
  induction cs generalizing sum with
  | nil => rfl
  | cons c rest ih =>
    obtain ⟨hdigit, hrest⟩ := List.forall_mem_cons.1 h
    simp only [numberFrom?, digitOf?_of_isDigit hdigit, ih hrest, Nat.ofDigitChars_cons,
      Nat.mul_comm 10]
    rfl

/-- Decimal digits are read as the number that they are the digits of. -/
theorem number?_of_digits (h : ∀ c ∈ cs, c.isDigit) :
    number? 10 cs = some (Nat.ofDigitChars 10 cs 0) :=
  numberFrom?_of_digits h 0

end ResumableUpload.Text
