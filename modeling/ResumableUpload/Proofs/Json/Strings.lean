import ResumableUpload.Json.Skip
import ResumableUpload.Proofs.Json.Grammar

/-!
# Strings of JSON texts

Reading the text of a string gives its characters, and skipping it leaves what is behind it
(`stringChars_append`, `Skip.string_append`). What is written is a text of what is written
(`stringText_written`), so a string that is read back is the same.
-/

namespace ResumableUpload.Json

/-! ## Blanks -/

theorem skipBlank_append {blanks : List Char} (hb : Blank blanks) (text : List Char) :
    skipBlank (blanks ++ text) = skipBlank text :=
  List.dropWhile_append_of_pos hb

theorem skipBlank_cons {c : Char} (hc : isBlank c = false) (rest : List Char) :
    skipBlank (c :: rest) = c :: rest := by
  rw [skipBlank, List.dropWhile_cons_of_neg (by rw [hc]; exact Bool.false_ne_true)]

/-! ## Reading -/

/-- The number of a quad, digit by digit. -/
theorem Quad.exists_digits {text : List Char} {n : Nat} (h : Quad text n) :
    ∃ a b c d i j k l, text = [a, b, c, d] ∧ Text.digitValue? a = some i ∧
      Text.digitValue? b = some j ∧ Text.digitValue? c = some k ∧ Text.digitValue? d = some l ∧
      n = i * 4096 + j * 256 + k * 16 + l := by
  obtain ⟨hlength, hnumber⟩ := h
  obtain ⟨a, b, c, d, rfl⟩ : ∃ a b c d, text = [a, b, c, d] := by
    match text, hlength with
    | [a, b, c, d], _ => exact ⟨a, b, c, d, rfl⟩
  have hdigit : ∀ {sum : Nat} {x : Char} {xs : List Char},
      Text.numberFrom? 16 sum (x :: xs) = some n →
      ∃ i, Text.digitValue? x = some i ∧ Text.numberFrom? 16 (sum * 16 + i) xs = some n := by
    intro sum x xs hx
    rw [Text.numberFrom?] at hx
    split at hx
    next i hi =>
      exact ⟨i, (Option.filter_eq_some_iff.1 hi).1, hx⟩
    next => cases hx
  obtain ⟨i, hi, hrest⟩ := hdigit hnumber
  obtain ⟨j, hj, hrest⟩ := hdigit hrest
  obtain ⟨k, hk, hrest⟩ := hdigit hrest
  obtain ⟨l, hl, hrest⟩ := hdigit hrest
  have hn := Option.some.inj hrest
  exact ⟨a, b, c, d, i, j, k, l, rfl, hi, hj, hk, hl, by omega⟩

theorem hexQuad_append {text : List Char} {n : Nat} (h : Quad text n) (rest : List Char) :
    hexQuad (text ++ rest) = .ok (n, rest) := by
  obtain ⟨a, b, c, d, i, j, k, l, rfl, ha, hb, hc, hd, rfl⟩ := h.exists_digits
  simp only [hexQuad, List.cons_append, List.nil_append, ha, hb, hc, hd]

/-- One character of a string, read. -/
theorem stringChars_char {c : Char} {text : List Char} (h : SpellsChar c text)
    (rest : List Char) :
    stringChars (text ++ rest) = (stringChars rest).map fun (cs, r) => (c :: cs, r) := by
  have hescape : ∀ {e : Char} {escape' : List Char}, escape (escape' ++ rest) = .ok (e, rest) →
      stringChars ('\\' :: escape' ++ rest) =
        (stringChars rest).map fun (cs, r) => (e :: cs, r) := by
    intro e escape' he
    rw [List.cons_append, stringChars]
    split
    next he' => rw [he] at he'; cases he'
    next he' => rw [he] at he'; cases he'; rfl
  cases h with
  | plain hquote hslash hcontrol =>
    rw [List.singleton_append, stringChars.eq_4, if_neg (Nat.not_lt.2 hcontrol)]
    · exact fun h => hquote h
    · exact fun h => hslash h
  | @letter l e hletter =>
    refine hescape ?_
    have hu : l ≠ 'u' := by
      rintro rfl
      cases hletter
    simp only [List.cons_append, List.nil_append, escape, if_neg hu, hletter]
  | @numbered quad n hquad hplane =>
    refine hescape ?_
    rw [List.cons_append, escape, if_pos rfl, numberedEscape, hexQuad_append hquad]
    simp only
    rw [if_neg (by omega), if_neg (by omega)]
  | @pair quad quad' high low hquad hquad' hhigh hlow =>
    refine hescape ?_
    rw [List.cons_append, escape, if_pos rfl, numberedEscape, List.append_assoc,
      hexQuad_append hquad]
    simp only
    rw [if_neg (by omega), if_pos hhigh, List.cons_append, List.cons_append, lowSurrogate,
      hexQuad_append hquad']
    simp only [if_pos hlow]

/-- The text of a string is read as its characters. -/
theorem stringChars_append {cs text : List Char} (h : StringText cs text) (rest : List Char) :
    stringChars (text ++ rest) = .ok (cs, rest) := by
  induction h with
  | close => rw [List.singleton_append, stringChars]
  | char h _ ih =>
    rw [List.append_assoc, stringChars_char h, ih]
    rfl

theorem readString_append {cs text : List Char} (h : StringText cs text) (rest : List Char) :
    readString (text ++ rest) = .ok (String.ofList cs, rest) := by
  rw [readString, stringChars_append h]
  rfl

/-! ## Skipping -/

/-- One character of a string, skipped. -/
theorem Skip.string_char {c : Char} {text : List Char} (h : SpellsChar c text)
    (rest : List Char) : Skip.string (text ++ rest) = Skip.string rest := by
  have hquad : ∀ {quad : List Char} {n : Nat}, Quad quad n → ∀ rest : List Char,
      Skip.string ('\\' :: 'u' :: quad ++ rest) = Skip.string rest := by
    intro quad n hquad rest
    obtain ⟨a, b, c, d, i, j, k, l, rfl, ha, hb, hc, hd, -⟩ := hquad.exists_digits
    simp only [List.cons_append, List.nil_append, Skip.string, List.all_cons, List.all_nil, ha, hb,
      hc, hd, Option.isSome_some, Bool.and_self, if_true]
  cases h with
  | plain hquote hslash hcontrol =>
    rw [List.singleton_append, Skip.string, if_neg (Nat.not_lt.2 hcontrol)]
    · exact fun h => hquote h
    · exact fun h => hslash h
  | @letter l e hletter =>
    have hu : l ≠ 'u' := by
      rintro rfl
      cases hletter
    rw [List.cons_append, List.singleton_append, Skip.string]
    · rw [hletter]
      rfl
    · exact fun _ _ _ _ _ h _ => hu h
    · exact fun h => hu h
  | numbered hq => exact hquad hq rest
  | @pair quad quad' _ _ hq hq' =>
    have hsplit : '\\' :: 'u' :: (quad ++ '\\' :: 'u' :: quad') ++ rest =
        '\\' :: 'u' :: quad ++ ('\\' :: 'u' :: quad' ++ rest) := by simp
    rw [hsplit, hquad hq, hquad hq']

/-- The text of a string is skipped as a whole. -/
theorem Skip.string_append {cs text : List Char} (h : StringText cs text) (rest : List Char) :
    Skip.string (text ++ rest) = .ok rest := by
  induction h with
  | close => rw [List.singleton_append, Skip.string]
  | char h _ ih => rw [List.append_assoc, Skip.string_char h, ih]

/-! ## Writing -/

theorem spellsChar_escaped (c : Char) : SpellsChar c (escaped c) := by
  rw [escaped]
  split
  next h => subst h; exact .letter rfl
  split
  next h => subst h; exact .letter rfl
  split
  next h => subst h; exact .letter rfl
  split
  next h => subst h; exact .letter rfl
  split
  next h => subst h; exact .letter rfl
  split
  next h => subst h; exact .letter rfl
  split
  next h => subst h; exact .letter rfl
  split
  next hcontrol =>
    have hnumber : ∀ n < 32, Text.number? 16
        ['0', '0', Nat.digitChar (n / 16), Nat.digitChar (n % 16)] = some n := by decide
    have hspelled := SpellsChar.numbered ⟨rfl, hnumber c.toNat hcontrol⟩
      (.inl (Nat.lt_trans hcontrol (by decide)))
    rwa [Char.ofNat_toNat] at hspelled
  next hquote hslash _ _ _ _ _ hcontrol => exact .plain hquote hslash (Nat.not_lt.1 hcontrol)

theorem stringText_flatMap_escaped (cs : List Char) :
    StringText cs (cs.flatMap escaped ++ ['"']) := by
  induction cs with
  | nil => exact .close
  | cons c cs ih =>
    rw [List.flatMap_cons, List.append_assoc]
    exact .char (spellsChar_escaped c) ih

end ResumableUpload.Json
