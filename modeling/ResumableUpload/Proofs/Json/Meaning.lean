import ResumableUpload.Json.Codec
import ResumableUpload.Proofs.Json.Skipping

/-!
# What a reader makes of a value

A text of a value can be spelled in many ways, and it can stand in many places. To a reader of this
library that is all the same: what it makes of a text depends on the value that is spelled, and the
rest is what is behind it. `Reads read meaning` says so, and says what the reader makes of each
value (`meaning levels tree`, nothing if it does not accept the value).

What a reader of a list makes of it are its items (`items_append`), and what a reader of members
makes of an object is a fold over them (`members_append`).
-/

namespace ResumableUpload.Json

/-! ## One text of a value -/

mutual

/-- A text of a value, without blanks. -/
def Tree.text : Tree → List Char
  | .null => ['n', 'u', 'l', 'l']
  | .boolean true => ['t', 'r', 'u', 'e']
  | .boolean false => ['f', 'a', 'l', 's', 'e']
  | .number negative numeral => if negative then '-' :: numeral.text else numeral.text
  | .string value => writeString value
  | .list items => '[' :: itemsText [] items
  | .object members => '\x7b' :: membersText [] members

/-- The text of items, from behind the opening bracket on, or from behind an item on; `lead` stands
before the next. -/
def itemsText (lead : List Char) : List Tree → List Char
  | [] => [']']
  | item :: rest => lead ++ (item.text ++ itemsText [','] rest)

def membersText (lead : List Char) : List (String × Tree) → List Char
  | [] => ['\x7d']
  | (key, value) :: rest =>
    lead ++ (writeString key ++ ':' :: (value.text ++ membersText [','] rest))

end

theorem blank_nil : Blank [] := nofun

/-- Nothing stands before the first item, and a comma before a later one. -/
theorem lead_nil : Lead true [] := .first blank_nil

theorem lead_comma : Lead false [','] :=
  show Lead false ([] ++ ',' :: []) from .later blank_nil blank_nil

section

variable {β : Type} {R : β → List Char → Prop} {first : Bool} {lead text texts : List Char} {x : β}

theorem listText_nil : ListText R first [] [']'] :=
  show ListText R first [] ([] ++ [']']) from .close blank_nil

theorem objectText_nil : ObjectText R first [] ['\x7d'] :=
  show ObjectText R first [] ([] ++ ['\x7d']) from .close blank_nil

theorem stringText_written (key : String) :
    StringText key.toList (key.toList.flatMap escaped ++ ['"']) :=
  stringText_flatMap_escaped key.toList

/-- A member without blanks. -/
theorem objectText_cons (hlead : Lead first lead) (key : String) (h : R x text)
    {xs : List (String × β)} (hs : ObjectText R false xs texts) :
    ObjectText R first ((key, x) :: xs)
      (lead ++ (writeString key ++ ':' :: (text ++ texts))) := by
  have hmember := ObjectText.member hlead (stringText_written key) blank_nil blank_nil h hs
  rwa [String.ofList_toList] at hmember

end

theorem spells_written (value : String) : Spells (.string value) (writeString value) := by
  have h := Spells.string (stringText_written value)
  rwa [String.ofList_toList] at h

theorem spells_text (tree : Tree) : Spells tree tree.text := by
  induction tree using Tree.induct with
  | null => exact .nullWord
  | boolean value => cases value <;> constructor
  | number negative numeral =>
    cases negative with
    | false => exact .positive numeral
    | true => exact .negative numeral
  | string value => exact spells_written value
  | list items ih =>
    have hitems : ∀ {first lead}, Lead first lead →
        ListText Spells first items (itemsText lead items) := by
      intro first lead hlead
      induction items generalizing first lead with
      | nil => exact listText_nil
      | cons item items ih' =>
        obtain ⟨hitem, hitems⟩ := List.forall_mem_cons.1 ih
        exact .item hlead hitem (ih' hitems lead_comma)
    rw [Tree.text]
    exact .list (hitems lead_nil)
  | object members ih =>
    have hmembers : ∀ {first lead}, Lead first lead →
        ObjectText Spells first members (membersText lead members) := by
      intro first lead hlead
      induction members generalizing first lead with
      | nil => exact objectText_nil
      | cons m members ih' =>
        obtain ⟨hm, hmembers⟩ := List.forall_mem_cons.1 ih
        exact objectText_cons hlead m.1 hm (ih' hmembers lead_comma)
    rw [Tree.text]
    exact .object (hmembers lead_nil)

/-! ## What a reader means -/

/-- What a reader makes of each value: nothing, if it does not accept it with so many levels. -/
abbrev Meaning (α : Type) := Nat → Tree → Option α

variable {α β : Type}

/-- A reader goes by the value that is spelled, and leaves what is behind it. -/
def Reads (read : Nat → List Char → Reading α) (meaning : Meaning α) : Prop :=
  ∀ (levels : Nat) {tree : Tree} {text blanks rest : List Char}, Spells tree text → Blank blanks →
    Stops rest →
    (read levels (blanks ++ (text ++ rest))).toOption = (meaning levels tree).map (·, rest)

/-- What a reader makes of one text of the value. -/
def understood (read : Nat → List Char → Reading α) : Meaning α := fun levels tree =>
  (read levels tree.text).toOption.map (·.1)

namespace Reads

variable {read : Nat → List Char → Reading α} {meaning : Meaning α}

/-- A text of its own. -/
theorem toOption (h : Reads read meaning) (levels : Nat) {tree : Tree} {text : List Char}
    (htext : Spells tree text) :
    (read levels text).toOption = (meaning levels tree).map (·, []) := by
  have hread := h levels htext blank_nil stops_nil
  rwa [List.nil_append, List.append_nil] at hread

theorem eq_understood (h : Reads read meaning) : meaning = understood read := by
  funext levels tree
  rw [understood, h.toOption levels (spells_text tree)]
  cases meaning levels tree <;> rfl

end Reads

theorem toOption_map {γ : Type} (r : Except ReadError α) (f : α → γ) :
    (r.map f).toOption = r.toOption.map f := by
  cases r <;> rfl

/-- What is made of the value leaves the rest as it is. -/
theorem toOption_map_value {γ : Type} {r : Reading α} {value : Option α} {rest : List Char}
    (h : r.toOption = value.map (·, rest)) (f : α → γ) :
    (r.map fun (x, rest) => (f x, rest)).toOption = (value.map f).map (·, rest) := by
  rw [toOption_map, h, Option.map_map, Option.map_map]
  rfl

theorem eq_ok_of_toOption {r : Except ReadError α} {x : α} (h : r.toOption = some x) :
    r = .ok x := by
  cases r with
  | error e => cases h
  | ok y => exact congrArg Except.ok (Option.some.inj h)

theorem eq_error_of_toOption {r : Except ReadError α} (h : r.toOption = none) :
    ∃ e, r = .error e := by
  cases r with
  | error e => exact ⟨e, rfl⟩
  | ok y => cases h

/-! ## Items and members -/

/-- What stands before an item is passed. -/
theorem nextItem_lead {first : Bool} {lead text : List Char} (hlead : Lead first lead)
    (h : Begins text) : nextItem first (lead ++ text) = .ok (some text) := by
  obtain ⟨c, rest, rfl, hc, hclose, -, -⟩ := h
  cases hlead with
  | first hb =>
    simp only [nextItem, skipBlank_append hb, skipBlank_cons hc, if_neg hclose, if_true]
  | later hb hb' =>
    have hcomma : isBlank ',' = false := rfl
    have hother : ',' ≠ ']' := by decide
    rw [List.append_assoc, List.cons_append]
    simp only [nextItem, skipBlank_append hb, skipBlank_cons hcomma, if_neg hother,
      skipBlank_append hb', skipBlank_cons hc, if_neg hclose, Bool.false_eq_true, if_false, if_true]

/-- A list does not close where an item stands. -/
theorem closeList_lead {first : Bool} {lead text : List Char} (hlead : Lead first lead)
    (h : Begins text) : ∃ e, closeList (lead ++ text) = .error e := by
  obtain ⟨c, rest, rfl, hc, hclose, -⟩ := h
  cases hlead with
  | first hb =>
    simp only [closeList, skipBlank_append hb, skipBlank_cons hc, if_neg hclose]
    exact ⟨_, rfl⟩
  | later hb hb' =>
    have hcomma : isBlank ',' = false := rfl
    have hother : ',' ≠ ']' := by decide
    rw [List.append_assoc, List.cons_append]
    simp only [closeList, skipBlank_append hb, skipBlank_cons hcomma, if_neg hother]
    exact ⟨_, rfl⟩

theorem nextItem_close {blanks : List Char} (hb : Blank blanks) (first : Bool) (rest : List Char) :
    nextItem first (blanks ++ ']' :: rest) = .ok none := by
  have hclose : isBlank ']' = false := rfl
  simp only [nextItem, skipBlank_append hb, skipBlank_cons hclose, if_true]

theorem closeList_append {blanks : List Char} (hb : Blank blanks) (rest : List Char) :
    closeList (blanks ++ ']' :: rest) = .ok rest := by
  have hclose : isBlank ']' = false := rfl
  simp only [closeList, skipBlank_append hb, skipBlank_cons hclose, if_true]

/-- The items of a list are what its texts mean, one after the other. -/
theorem items_append {R : β → List Char → Prop} {item : List Char → Reading α} {m : β → Option α}
    (hR : ∀ x text, R x text → Begins text ∧ ∀ rest, Stops rest →
      (item (text ++ rest)).toOption = (m x).map (·, rest))
    {first : Bool} {xs : List β} {text : List Char} (h : ListText R first xs text) {fuel : Nat}
    (hfuel : text.length ≤ fuel) (rest : List Char) :
    (items item fuel first (text ++ rest)).toOption = (xs.mapM m).map (·, rest) := by
  induction h generalizing fuel with
  | @close first blanks hb =>
    obtain ⟨fuel, rfl⟩ : ∃ f, fuel = f + 1 := Nat.exists_eq_add_one.2 (by
      rw [List.length_append, List.length_singleton] at hfuel
      omega)
    rw [List.append_assoc, List.singleton_append, items, nextItem_close hb]
    simp only [closeList_append hb]
    rfl
  | @item first lead x text xs texts hlead h hs ih =>
    obtain ⟨hbegins, hitem⟩ := hR x text h
    have hsize : 0 < text.length := by
      obtain ⟨c, r, rfl, -⟩ := hbegins
      exact Nat.succ_pos _
    rw [List.length_append, List.length_append] at hfuel
    obtain ⟨fuel, rfl⟩ : ∃ f, fuel = f + 1 := Nat.exists_eq_add_one.2 (by omega)
    have hnext := nextItem_lead hlead (hbegins.append (texts ++ rest))
    have hhead := hitem (texts ++ rest) (hs.stops rest)
    have htail := @ih fuel (by omega)
    rw [List.append_assoc, List.append_assoc, items, hnext, List.mapM_cons]
    simp only
    cases hx : m x with
    | none =>
      obtain ⟨e, he⟩ := eq_error_of_toOption (hx ▸ hhead)
      rw [he]
      rfl
    | some y =>
      rw [hx] at hhead
      rw [eq_ok_of_toOption hhead]
      simp only
      cases hxs : xs.mapM m with
      | none =>
        obtain ⟨e, he⟩ := eq_error_of_toOption (hxs ▸ htail)
        rw [he]
        rfl
      | some ys =>
        rw [hxs] at htail
        rw [eq_ok_of_toOption htail]
        rfl

/-- The key of a member comes next. -/
theorem nextKey_lead {first : Bool} {lead key keyText : List Char} (hlead : Lead first lead)
    (hkey : StringText key keyText) (rest : List Char) :
    nextKey first (lead ++ '"' :: (keyText ++ rest)) = .ok (some (String.ofList key, rest)) := by
  have hquote : isBlank '"' = false := rfl
  have hother : '"' ≠ '\x7d' := by decide
  cases hlead with
  | first hb =>
    simp only [nextKey, skipBlank_append hb, skipBlank_cons hquote, if_neg hother, if_true,
      nextKey.quotedKey, readString_append hkey, Except.map]
  | later hb hb' =>
    have hcomma : isBlank ',' = false := rfl
    have hother' : ',' ≠ '\x7d' := by decide
    rw [List.append_assoc, List.cons_append]
    simp only [nextKey, skipBlank_append hb, skipBlank_cons hcomma, if_neg hother',
      skipBlank_append hb', skipBlank_cons hquote, Bool.false_eq_true, if_false, if_true,
      nextKey.quotedKey, readString_append hkey, Except.map]

theorem nextKey_close {blanks : List Char} (hb : Blank blanks) (first : Bool) (rest : List Char) :
    nextKey first (blanks ++ '\x7d' :: rest) = .ok none := by
  have hclose : isBlank '\x7d' = false := rfl
  simp only [nextKey, skipBlank_append hb, skipBlank_cons hclose, if_true]

theorem closeObject_append {blanks : List Char} (hb : Blank blanks) (rest : List Char) :
    closeObject (blanks ++ '\x7d' :: rest) = .ok rest := by
  have hclose : isBlank '\x7d' = false := rfl
  simp only [closeObject, skipBlank_append hb, skipBlank_cons hclose, if_true]

theorem colon_append {blanks : List Char} (hb : Blank blanks) (rest : List Char) :
    colon (blanks ++ ':' :: rest) = .ok rest := by
  have hcolon : isBlank ':' = false := rfl
  simp only [colon, skipBlank_append hb, skipBlank_cons hcolon, if_true]

/-- Reading the members of an object goes through them, one after the other. -/
theorem members_append {σ : Type} {R : β → List Char → Prop}
    {member : σ → String → List Char → Reading σ} {step : σ → String × β → Option σ}
    (hR : ∀ x text, R x text → ∀ acc key blanks blanks' rest, Blank blanks → Blank blanks' →
      Stops rest → (member acc key (blanks ++ ':' :: (blanks' ++ (text ++ rest)))).toOption =
        (step acc (key, x)).map (·, rest))
    {first : Bool} {xs : List (String × β)} {text : List Char} (h : ObjectText R first xs text)
    {fuel : Nat} (hfuel : text.length ≤ fuel) (acc : σ) (rest : List Char) :
    (members member fuel first acc (text ++ rest)).toOption =
      (xs.foldlM step acc).map (·, rest) := by
  induction h generalizing fuel acc with
  | @close first blanks hb =>
    obtain ⟨fuel, rfl⟩ : ∃ f, fuel = f + 1 := Nat.exists_eq_add_one.2 (by
      rw [List.length_append, List.length_singleton] at hfuel
      omega)
    rw [List.append_assoc, List.singleton_append, members, nextKey_close hb]
    simp only [closeObject_append hb]
    rfl
  | @member first lead key keyText blanks blanks' x text xs texts hlead hkey hb hb' h hs ih =>
    simp only [List.length_append, List.length_cons] at hfuel
    obtain ⟨fuel, rfl⟩ : ∃ f, fuel = f + 1 := Nat.exists_eq_add_one.2 (by omega)
    have hhead := hR x text h acc (String.ofList key) blanks blanks' (texts ++ rest) hb hb'
      (hs.stops rest)
    simp only [List.append_assoc, List.cons_append]
    rw [members, nextKey_lead hlead hkey, List.foldlM_cons]
    simp only
    cases hx : step acc (String.ofList key, x) with
    | none =>
      obtain ⟨e, he⟩ := eq_error_of_toOption (hx ▸ hhead)
      rw [he]
      rfl
    | some acc' =>
      rw [hx] at hhead
      rw [eq_ok_of_toOption hhead]
      exact ih (by omega) acc'

end ResumableUpload.Json
