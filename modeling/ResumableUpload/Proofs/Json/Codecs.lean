import ResumableUpload.Proofs.Json.Meaning

/-!
# What the codecs read

The meaning of each reader of `Json.Codec`: of texts, integers and named choices, of nullable
values, of lists, and of free-form values.
-/

namespace ResumableUpload

namespace Json

variable {α : Type}

theorem skipBlank_spelled {tree : Tree} {text blanks : List Char} (h : Spells tree text)
    (hb : Blank blanks) (rest : List Char) :
    skipBlank (blanks ++ (text ++ rest)) = text ++ rest := by
  obtain ⟨c, r, rfl, hc, -⟩ := h.begins
  rw [skipBlank_append hb, List.cons_append, skipBlank_cons hc]

/-- The number that a numeral spells; none, if it is too large for a double. -/
def Numeral.value? (numeral : Numeral) (negative : Bool) : Option Number :=
  (Number.magnitude negative numeral.text).toOption.map (·.1)

theorem Numeral.toOption_magnitude (numeral : Numeral) (negative : Bool) {rest : List Char}
    (hrest : Stops rest) : (Number.magnitude negative (numeral.text ++ rest)).toOption =
      (numeral.value? negative).map (·, rest) := by
  rw [Number.magnitude_append numeral.spelled rest hrest, toOption_map, value?, Option.map_map]
  rfl

/-! ## The meanings -/

namespace Meaning

/-- Of a string that is parsed. -/
def ofText (parse : String → Except ReadError α) : Meaning α
  | _, .string t => (parse t).toOption
  | _, _ => none

/-- Of an integer. -/
def ofInteger (ofInt? : Int → Option α) : Meaning α
  | _, .number negative numeral =>
    match numeral.value? negative with
    | some (.integer n) => ofInt? n
    | _ => none
  | _, _ => none

/-- The key of a member that stands alone and has null as its value. -/
def loneKey? : List (String × Tree) → Option String
  | [(key, .null)] => some key
  | _ => none

theorem bind_loneKey? (key : String) (tree : Tree) (members : List (String × Tree))
    (f : String → Option α) : (loneKey? ((key, tree) :: members)).bind f =
      (f key).bind fun value => (loneKey? ((key, tree) :: members)).map fun _ => value := by
  rw [loneKey?.eq_def]
  split
  next heq =>
    cases heq
    rw [Option.bind_some]
    cases f key <;> rfl
  next => cases f key <;> rfl

/-- Of one of several names, as a string or as the key of an object. -/
def choice (options : List (String × α)) : Meaning α := fun levels tree =>
  match tree, levels with
  | .string key, _ => options.lookup key
  | .object members, _ + 1 => (loneKey? members).bind (options.lookup ·)
  | _, _ => none

/-- Of a value that may be null. -/
def nullable (m : Meaning α) : Meaning (Option α)
  | _, .null => some none
  | levels, tree => (m levels tree).map some

theorem nullable_of_ne_null (m : Meaning α) (levels : Nat) {tree : Tree} (h : tree ≠ .null) :
    m.nullable levels tree = (m levels tree).map some := by
  rw [nullable]
  exact h

/-- Of a list. -/
def list (m : Meaning α) : Meaning (List α) := fun levels tree =>
  match tree, levels with
  | .list items, levels + 1 => items.mapM (m levels)
  | _, _ => none

mutual

/-- Of any value. -/
def json : Meaning Json
  | _, .null => some .null
  | _, .boolean value => some (.boolean value)
  | _, .number negative numeral => (numeral.value? negative).map .number
  | _, .string value => some (.string value)
  | levels + 1, .list items => (jsonItems levels items).map .list
  | levels + 1, .object members => (jsonMembers levels [] members).map .object
  | 0, .list _ => none
  | 0, .object _ => none

def jsonItems (levels : Nat) : List Tree → Option (List Json)
  | [] => some []
  | item :: items => do return (← json levels item) :: (← jsonItems levels items)

def jsonMembers (levels : Nat) (acc : List (String × Json)) :
    List (String × Tree) → Option (List (String × Json))
  | [] => some acc
  | (key, value) :: members => do
    jsonMembers levels (insert key (← json levels value) acc) members

end

theorem jsonItems_eq_mapM (levels : Nat) (items : List Tree) :
    jsonItems levels items = items.mapM (json levels) := by
  induction items with
  | nil => rfl
  | cons item items ih => rw [jsonItems, List.mapM_cons, ih]

/-- One member of an object, put in its place. -/
def jsonMember (levels : Nat) (acc : List (String × Json)) (m : String × Tree) :
    Option (List (String × Json)) :=
  (json levels m.2).map fun value => insert m.1 value acc

theorem jsonMembers_eq_foldlM (levels : Nat) (acc : List (String × Json))
    (members : List (String × Tree)) :
    jsonMembers levels acc members = members.foldlM (jsonMember levels) acc := by
  induction members generalizing acc with
  | nil => rfl
  | cons m members ih =>
    rw [jsonMembers, List.foldlM_cons, jsonMember]
    cases json levels m.2 with
    | none => rfl
    | some value => exact ih _

end Meaning

end Json

namespace Codec

open Json

variable {α : Type}

/-! ## Leaves -/

theorem reads_ofText (expected : String) (parse : String → Except ReadError α)
    (print : α → String) : Reads (ofText expected parse print).read (.ofText parse) := by
  intro levels tree text blanks rest h hb hrest
  simp only [ofText, skipBlank_spelled h hb]
  cases h with
  | positive numeral =>
    obtain ⟨d, r, htext, hd⟩ := numeral.spelled.exists_digit
    rw [htext, List.cons_append]
    split
    next heq => cases heq
    next heq => cases heq; cases hd
    next => rfl
  | @string cs _ h =>
    simp only [List.cons_append, readString_append h, Meaning.ofText]
    cases parse (String.ofList cs) <;> rfl
  | _ => rfl

theorem reads_ofInteger (expected : String) (ofInt? : Int → Option α) (toInt : α → Int) :
    Reads (ofInteger expected ofInt? toInt).read (.ofInteger ofInt?) := by
  intro levels tree text blanks rest h hb hrest
  have hnumber : ∀ {numeral : Numeral} {negative : Bool},
      (ofInteger.number expected ofInt?
        (Number.magnitude negative (numeral.text ++ rest))).toOption =
      (Meaning.ofInteger ofInt? levels (.number negative numeral)).map (·, rest) := by
    intro numeral negative
    have hmagnitude := numeral.toOption_magnitude negative hrest
    rw [Meaning.ofInteger]
    cases hvalue : numeral.value? negative with
    | none =>
      obtain ⟨e, he⟩ := eq_error_of_toOption (hvalue ▸ hmagnitude)
      rw [he]
      rfl
    | some number =>
      rw [hvalue] at hmagnitude
      rw [eq_ok_of_toOption hmagnitude]
      cases number with
      | integer n =>
        simp only [ofInteger.number]
        cases ofInt? n <;> rfl
      | double => rfl
  simp only [ofInteger, skipBlank_spelled h hb]
  cases h with
  | positive numeral =>
    rw [← hnumber]
    obtain ⟨d, r, htext, hd⟩ := numeral.spelled.exists_digit
    rw [htext, List.cons_append]
    split
    next heq => cases heq
    next heq => cases heq; cases hd
    next heq => cases heq; rw [if_pos hd]
  | negative numeral => exact hnumber
  | _ => rfl

/-! ## Nullable values -/

theorem reads_nullable {read : Nat → List Char → Reading α} {m : Meaning α} (h : Reads read m) :
    Reads (nullable read) m.nullable := by
  intro levels tree text blanks rest hspelled hb hrest
  have hother : ∀ {c : Char} {r : List Char}, text = c :: r → c ≠ 'n' →
      (nullable read levels (blanks ++ (text ++ rest))).toOption =
        ((m levels tree).map some).map (·, rest) := by
    intro c r htext hc
    have hread := h levels hspelled blank_nil hrest
    rw [nullable, skipBlank_spelled hspelled hb, htext, List.cons_append]
    split
    next heq => cases heq; exact absurd rfl hc
    next =>
      rw [List.nil_append] at hread
      rw [← List.cons_append, ← htext]
      exact toOption_map_value hread some
  cases hspelled with
  | nullWord =>
    rw [nullable, skipBlank_spelled .nullWord hb]
    rfl
  | positive numeral =>
    obtain ⟨d, r, htext, hd⟩ := numeral.spelled.exists_digit
    exact hother htext (by rintro rfl; cases hd)
  | _ => exact hother rfl (by decide)

/-! ## Lists -/

theorem reads_list {c : Codec α} {m : Meaning α} (h : Reads c.read m) :
    Reads (Codec.list c).read m.list := by
  intro levels tree text blanks rest hspelled hb hrest
  simp only [Codec.list, skipBlank_spelled hspelled hb]
  cases hspelled with
  | positive numeral =>
    obtain ⟨d, r, htext, hd⟩ := numeral.spelled.exists_digit
    rw [htext, List.cons_append]
    split
    next heq => cases heq
    next heq => cases heq; cases hd
    next => rfl
  | @list items text hitems =>
    cases levels with
    | zero => rfl
    | succ levels =>
      refine items_append (fun item text hitem => ⟨hitem.begins, fun rest hrest => ?_⟩) hitems
        (by simp; omega) rest
      exact h levels hitem blank_nil hrest
  | _ => rfl

/-! ## Choices -/

/-- Behind a name and its colon, null and the closing brace must come. -/
theorem toOption_closing (value : α) (key : String) {tree : Tree} {text texts : List Char}
    {members : List (String × Tree)} (h : Spells tree text)
    (hs : ObjectText Spells false members texts) (rest : List Char) :
    (choice.closing value (text ++ (texts ++ rest))).toOption =
      (Meaning.loneKey? ((key, tree) :: members)).map fun _ => (value, rest) := by
  cases h with
  | nullWord =>
    cases hs with
    | close hb =>
      rw [List.append_assoc]
      simp only [choice.closing, List.cons_append, List.nil_append, word, if_true,
        closeObject_append hb]
      rfl
    | member hlead =>
      cases hlead with
      | later hb =>
        have hcomma : isBlank ',' = false := rfl
        simp only [choice.closing, List.cons_append, List.nil_append, List.append_assoc, word,
          if_true, closeObject, skipBlank_append hb, skipBlank_cons hcomma]
        rfl
  | positive numeral =>
    have hclosing : ∀ {c : Char} {r : List Char}, c.isDigit →
        (choice.closing value (c :: r)).toOption = none := by
      intro c r hc
      rw [choice.closing.eq_def]
      split
      next heq => cases heq; cases hc
      next heq => cases heq
      next => rfl
    obtain ⟨d, r, htext, hd⟩ := numeral.spelled.exists_digit
    rw [show numeral.text ++ (texts ++ rest) = d :: (r ++ (texts ++ rest)) by rw [htext]; rfl,
      hclosing hd]
    rfl
  | _ => rfl

theorem reads_choice (options : List (String × α)) (name : α → String) :
    Reads (choice options name).read (.choice options) := by
  intro levels tree text blanks rest hspelled hb hrest
  simp only [choice, skipBlank_spelled hspelled hb]
  cases hspelled with
  | positive numeral =>
    obtain ⟨d, r, htext, hd⟩ := numeral.spelled.exists_digit
    rw [htext, List.cons_append]
    split
    next heq => cases heq
    next heq => cases heq; cases hd
    next heq => cases heq; cases hd
    next => rfl
  | @string cs _ h =>
    simp only [List.cons_append, readString_append h, choice.pick, Meaning.choice]
    cases options.lookup (String.ofList cs) <;> rfl
  | @object members text h =>
    cases levels with
    | zero => rfl
    | succ levels =>
      simp only [List.cons_append]
      cases h with
      | close hb =>
        have hclose : isBlank '\x7d' = false := rfl
        rw [List.append_assoc, choice.keyed, skipBlank_append hb, List.singleton_append,
          skipBlank_cons hclose]
        rfl
      | @member _ lead key keyText blanks' blanks'' x text xs texts hlead hkey hb' hb'' h hs =>
        cases hlead with
        | first hb =>
          have hquote : isBlank '"' = false := rfl
          simp only [List.append_assoc, List.cons_append, choice.keyed, skipBlank_append hb,
            skipBlank_cons hquote, readString_append hkey, choice.pick]
          rw [Meaning.choice, Meaning.bind_loneKey?]
          cases hlookup : options.lookup (String.ofList key) with
          | none => rfl
          | some value =>
            have hclosing := toOption_closing value (String.ofList key) h hs rest
            simp only [colon_append hb', skipBlank_spelled h hb'', hclosing, Option.bind_some,
              Option.map_map]
            rfl
  | _ => rfl

/-! ## Free-form values -/

/-- A member of an object is put in its place. -/
theorem toOption_member {levels : Nat} {tree : Tree} {text blanks rest : List Char}
    (hread : (Json.read levels text).toOption = (Meaning.json levels tree).map (·, rest))
    (acc : List (String × Json)) (key : String) (hb : Blank blanks) :
    (Json.member (Json.read levels) acc key (blanks ++ ':' :: text)).toOption =
      (Meaning.jsonMember levels acc (key, tree)).map (·, rest) := by
  simp only [Json.member, colon_append hb]
  exact toOption_map_value hread fun value => insert key value acc

theorem toOption_read_number {negative : Bool} {numeral : Numeral} {text blanks rest : List Char}
    (h : Spells (.number negative numeral) text) (hb : Blank blanks) (hrest : Stops rest)
    (levels : Nat) : (Json.read levels (blanks ++ (text ++ rest))).toOption =
      (Meaning.json levels (.number negative numeral)).map (·, rest) := by
  rw [Json.read.eq_def, skipBlank_spelled h hb]
  cases h with
  | positive =>
    have hmagnitude := numeral.toOption_magnitude false hrest
    obtain ⟨d, r, htext, hd⟩ := numeral.spelled.exists_digit
    rw [htext, List.cons_append] at hmagnitude ⊢
    split
    case h_9 heq =>
      cases heq
      rw [if_pos hd, Meaning.json]
      exact toOption_map_value hmagnitude Json.number
    -- No digit begins anything else.
    all_goals
      next heq => cases heq <;> cases hd
  | negative =>
    rw [Meaning.json]
    exact toOption_map_value (numeral.toOption_magnitude true hrest) Json.number

theorem reads_json : Reads Codec.json.read .json := by
  intro levels tree text blanks rest hspelled hb hrest
  show (Json.read levels _).toOption = _
  induction tree using Tree.induct generalizing levels text blanks rest with
  | null =>
    cases hspelled
    rw [Json.read.eq_def, skipBlank_spelled .nullWord hb]
    rfl
  | boolean =>
    rw [Json.read.eq_def, skipBlank_spelled hspelled hb]
    cases hspelled <;> rfl
  | number negative numeral => exact toOption_read_number hspelled hb hrest levels
  | string =>
    rw [Json.read.eq_def, skipBlank_spelled hspelled hb]
    cases hspelled with
    | string h =>
      simp only [List.cons_append, readString_append h]
      rfl
  | list items ih =>
    rw [Json.read.eq_def, skipBlank_spelled hspelled hb]
    cases hspelled with
    | @list _ text h =>
      cases levels with
      | zero => rfl
      | succ levels =>
        have hread := items_append (m := Meaning.json levels) (fun _ _ h => h)
          (h.imp fun item hitem text h => ⟨h.begins, fun rest hrest =>
            ih item hitem levels h blank_nil hrest⟩)
          (show text.length ≤ (text ++ rest).length + 1 by simp; omega) rest
        simp only [List.cons_append]
        rw [Meaning.json, Meaning.jsonItems_eq_mapM]
        exact toOption_map_value hread Json.list
  | object members ih =>
    rw [Json.read.eq_def, skipBlank_spelled hspelled hb]
    cases hspelled with
    | @object _ text h =>
      cases levels with
      | zero => rfl
      | succ levels =>
        have hread := members_append (fun _ _ h => h)
          (h.imp fun m hm text h acc key blanks blanks' rest hb hb' hrest =>
            toOption_member (ih m hm levels h hb' hrest) acc key hb)
          (show text.length ≤ (text ++ rest).length + 1 by simp; omega) [] rest
        simp only [List.cons_append]
        rw [Meaning.json, Meaning.jsonMembers_eq_foldlM]
        exact toOption_map_value hread Json.object

end Codec

end ResumableUpload
