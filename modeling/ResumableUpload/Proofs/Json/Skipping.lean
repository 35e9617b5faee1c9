import ResumableUpload.Proofs.Json.Numerals
import ResumableUpload.Proofs.Json.Strings

/-!
# Skipping a JSON value

Skipping takes a value as a whole, of any depth, and leaves what is behind it (`Skip.value_append`).
The steps that it takes are counted along the text: a value of `n` characters takes fewer than `2 n`
of them (`Skip.Passes`), so they never run out.
-/

namespace ResumableUpload.Json.Skip

/-- Skipping passes over this text of a value, wherever it stands and whatever stops it. -/
def Passes (text : List Char) : Prop :=
  ∃ steps < 2 * text.length, ∀ fuel stack blanks rest, Blank blanks → Stops rest →
    run (fuel + steps) stack .value (blanks ++ (text ++ rest)) = run fuel stack .item rest

/-- A value that opens no bracket takes one step. -/
theorem passes_of_head {c : Char} {text : List Char} (hc : isBlank c = false)
    (h : ∀ rest, Stops rest → head (c :: text ++ rest) = .ok (none, rest)) :
    Passes (c :: text) := by
  refine ⟨1, by rw [List.length_cons]; omega, fun fuel stack blanks rest hblanks hrest => ?_⟩
  have hhead := h rest hrest
  rw [run, skipBlank_append hblanks, List.cons_append, skipBlank_cons hc, ← List.cons_append, hhead]

/-- Where a list or an object is gone on with. -/
def place (first : Bool) : Place := if first then .opened else .item

/-- Skipping passes over the rest of a list or an object, from behind its opening bracket or from
behind an item on. -/
def PassesRest (frame : Frame) (first : Bool) (text : List Char) : Prop :=
  ∃ steps < 2 * text.length, ∀ fuel stack rest,
    run (fuel + steps) (frame :: stack) (place first) (text ++ rest) = run fuel stack .item rest

/-- Passing over all items of a list or object is passing over its text. -/
theorem PassesRest.passes {c : Char} {frame : Frame} {text : List Char} (hc : isBlank c = false)
    (hopens : ∀ rest, head (c :: rest) = .ok (some frame, rest))
    (h : PassesRest frame true text) : Passes (c :: text) := by
  obtain ⟨steps, hsteps, hrun⟩ := h
  refine ⟨steps + 1, by rw [List.length_cons]; omega, fun fuel stack blanks rest hblanks _ => ?_⟩
  rw [← Nat.add_assoc, run, skipBlank_append hblanks, List.cons_append, skipBlank_cons hc, hopens]
  exact hrun fuel stack rest

theorem passesRest_close {c : Char} {frame : Frame} {first : Bool} {blanks : List Char}
    (hblanks : Blank blanks) (hc : isBlank c = false) (hcloses : closes frame c = true) :
    PassesRest frame first (blanks ++ [c]) := by
  refine ⟨1, by rw [List.length_append, List.length_singleton]; omega, fun fuel stack rest => ?_⟩
  rw [List.append_assoc, List.singleton_append]
  cases first <;>
    simp only [place, run, skipBlank_append hblanks, skipBlank_cons hc, hcloses, if_true,
      Bool.false_eq_true, if_false]

/-- The step to the next item: what stands before it is passed, and its value comes next. -/
theorem run_lead (frame : Frame) {first : Bool} {lead : List Char} (hlead : Lead first lead)
    {c : Char} (hc : isBlank c = false) (hopen : closes frame c = false) (text : List Char) :
    ∃ blanks, Blank blanks ∧ ∀ {next : List Char},
      nextValue frame (blanks ++ c :: text) = .ok next → ∀ fuel stack,
        run (fuel + 1) (frame :: stack) (place first) (lead ++ c :: text) =
          run fuel (frame :: stack) .value next := by
  cases hlead with
  | first hb =>
    refine ⟨[], nofun, fun {next} hnext fuel stack => ?_⟩
    rw [List.nil_append] at hnext
    simp only [place, run, skipBlank_append hb, skipBlank_cons hc, hopen, Bool.false_eq_true,
      if_false, if_true, nextItem?, hnext]
  | @later blanks blanks' hb hb' =>
    refine ⟨blanks', hb', fun {next} hnext fuel stack => ?_⟩
    have hcomma : closes frame ',' = false := by cases frame <;> rfl
    have hblank : isBlank ',' = false := rfl
    rw [List.append_assoc, List.cons_append]
    simp only [place, run, skipBlank_append hb, skipBlank_cons hblank, hcomma, Bool.false_eq_true,
      if_false, nextItem?, reduceCtorEq, hnext]

/-- The rest of a list of texts that skipping passes over. -/
theorem passesRest_of_listText {β : Type} {R : β → List Char → Prop}
    (hR : ∀ x text, R x text → Begins text ∧ Passes text) {first : Bool} {xs : List β}
    {text : List Char} (h : ListText R first xs text) : PassesRest .list first text := by
  induction h with
  | close hb => exact passesRest_close hb rfl rfl
  | @item first lead x text xs texts hlead h hs ih =>
    obtain ⟨⟨c, r, rfl, hc, hclose, -⟩, steps, hsteps, hrun⟩ := hR _ _ h
    obtain ⟨steps', hsteps', hrun'⟩ := ih
    refine ⟨steps' + steps + 1, ?_, fun fuel stack rest => ?_⟩
    · simp only [List.length_append]
      omega
    · have hopen : closes .list c = false := by simpa [closes] using hclose
      obtain ⟨blanks, hb, hstep⟩ := run_lead .list hlead hc hopen (r ++ (texts ++ rest))
      rw [← Nat.add_assoc, ← Nat.add_assoc, List.append_assoc, List.append_assoc, List.cons_append,
        hstep rfl, ← List.cons_append, hrun _ _ _ _ hb (hs.stops rest)]
      exact hrun' fuel stack rest

/-- The key of a member and its colon are passed. -/
theorem key_append {key keyText blanks blanks' : List Char} (hkey : StringText key keyText)
    (hb : Blank blanks) (hb' : Blank blanks') (rest : List Char) :
    Skip.key (blanks ++ '"' :: (keyText ++ (blanks' ++ ':' :: rest))) = .ok rest := by
  have hquote : isBlank '"' = false := rfl
  have hcolon : isBlank ':' = false := rfl
  simp only [Skip.key, skipBlank_append hb, skipBlank_cons hquote, string_append hkey,
    skipBlank_append hb', skipBlank_cons hcolon]

/-- The rest of an object, in the same way. -/
theorem passesRest_of_objectText {β : Type} {R : β → List Char → Prop}
    (hR : ∀ x text, R x text → Passes text) {first : Bool} {xs : List (String × β)}
    {text : List Char} (h : ObjectText R first xs text) : PassesRest .object first text := by
  induction h with
  | close hb => exact passesRest_close hb rfl rfl
  | @member first lead key keyText blanks blanks' x text xs texts hlead hkey hb hb' h hs ih =>
    obtain ⟨steps, hsteps, hrun⟩ := hR _ _ h
    obtain ⟨steps', hsteps', hrun'⟩ := ih
    refine ⟨steps' + steps + 1, ?_, fun fuel stack rest => ?_⟩
    · simp only [List.length_append, List.length_cons]
      omega
    · obtain ⟨blanks'', hb'', hstep⟩ := run_lead .object hlead (c := '"') rfl rfl
        (keyText ++ (blanks ++ ':' :: (blanks' ++ (text ++ (texts ++ rest)))))
      simp only [List.append_assoc, List.cons_append]
      rw [← Nat.add_assoc, ← Nat.add_assoc, hstep (key_append hkey hb'' hb _),
        hrun _ _ _ _ hb' (hs.stops rest)]
      exact hrun' fuel stack rest

theorem head_digit {d : Char} (hd : d.isDigit) (rest : List Char) :
    head (d :: rest) = (number (d :: rest)).map (none, ·) := by
  rw [head, if_pos hd]
  all_goals rintro rfl; cases hd

/-- Skipping passes over every value. -/
theorem passes {tree : Tree} {text : List Char} (h : Spells tree text) : Passes text := by
  induction tree using Tree.induct generalizing text with
  | null =>
    cases h
    exact passes_of_head rfl fun _ _ => rfl
  | boolean =>
    cases h with
    | trueWord => exact passes_of_head rfl fun _ _ => rfl
    | falseWord => exact passes_of_head rfl fun _ _ => rfl
  | number _ numeral =>
    cases h with
    | positive =>
      have hnumber : ∀ rest, Stops rest → number (numeral.text ++ rest) = .ok rest :=
        fun _ => number_append numeral.spelled
      obtain ⟨d, r, htext, hd⟩ := numeral.spelled.exists_digit
      obtain ⟨_, _, ⟨⟩, hblank, -⟩ := begins_of_digit hd r
      rw [htext] at hnumber ⊢
      refine passes_of_head hblank fun rest hrest => ?_
      rw [List.cons_append, head_digit hd, ← List.cons_append, hnumber rest hrest]
      rfl
    | negative =>
      refine passes_of_head rfl fun rest hrest => ?_
      rw [List.cons_append, head, number_append numeral.spelled hrest]
      rfl
  | string =>
    cases h with
    | string h =>
      refine passes_of_head rfl fun rest _ => ?_
      rw [List.cons_append, head, string_append h]
      rfl
  | list items ih =>
    cases h with
    | list h =>
      have hitems : PassesRest .list true _ := passesRest_of_listText (fun _ _ h => h)
        (h.imp fun item hitem _ h => ⟨h.begins, ih item hitem h⟩)
      exact hitems.passes rfl fun _ => rfl
  | object members ih =>
    cases h with
    | object h =>
      have hmembers : PassesRest .object true _ := passesRest_of_objectText (fun _ _ h => h)
        (h.imp fun m hm _ h => ih m hm h)
      exact hmembers.passes rfl fun _ => rfl

/-- Skipping leaves what is behind a value. -/
theorem value_append {tree : Tree} {text blanks rest : List Char} (h : Spells tree text)
    (hblanks : Blank blanks) (hrest : Stops rest) :
    value (blanks ++ (text ++ rest)) = .ok rest := by
  obtain ⟨steps, hsteps, hrun⟩ := passes h
  have hfuel : 2 * (blanks ++ (text ++ rest)).length + 2 =
      2 * (blanks ++ (text ++ rest)).length + 1 - steps + 1 + steps := by
    simp only [List.length_append]
    omega
  rw [value, hfuel, hrun _ _ _ _ hblanks hrest, run]
  exact nofun

end ResumableUpload.Json.Skip
