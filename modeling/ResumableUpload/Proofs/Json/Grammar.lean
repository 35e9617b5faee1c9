import ResumableUpload.Json.Text

/-!
# The grammar of JSON

What JSON texts there are, said without reading any of them: a relation between a value and its
texts. A `Tree` is a value as a text has it, without blanks, and with the characters of a string in
place of their escapes; a number stays as it is spelled, and an object keeps its members in their
order, however often a key occurs. `Spells tree text` says that this is a text of the tree.

Half a surrogate pair spells nothing.
-/

namespace ResumableUpload.Json

/-- Nothing but blanks. -/
def Blank (text : List Char) : Prop := ∀ c ∈ text, isBlank c

/-- What may stand behind a value: a blank, a comma, a closing bracket, or nothing at all. -/
def Stops (text : List Char) : Prop :=
  ∀ c ∈ text.head?, isBlank c ∨ c = ',' ∨ c = ']' ∨ c = '\x7d'

/-! ## Strings -/

/-- Four hexadecimal digits and their number. -/
def Quad (text : List Char) (n : Nat) : Prop := text.length = 4 ∧ Text.number? 16 text = some n

/-- A character and a text of it within a string. -/
inductive SpellsChar : Char → List Char → Prop
  | plain {c : Char} (hquote : c ≠ '"') (hslash : c ≠ '\\') (hcontrol : 32 ≤ c.toNat) :
      SpellsChar c [c]
  | letter {c e : Char} (h : letterEscape? c = some e) : SpellsChar e ['\\', c]
  /-- The number of a character of the basic plane. -/
  | numbered {text : List Char} {n : Nat} (hquad : Quad text n)
      (hplane : n < 0xD800 ∨ 0xDFFF < n) : SpellsChar (Char.ofNat n) ('\\' :: 'u' :: text)
  /-- A surrogate pair. -/
  | pair {text text' : List Char} {high low : Nat} (hquad : Quad text high)
      (hquad' : Quad text' low) (hhigh : 0xD800 ≤ high ∧ high ≤ 0xDBFF)
      (hlow : 0xDC00 ≤ low ∧ low ≤ 0xDFFF) :
      SpellsChar (Char.ofNat ((high - 0xD800) * 1024 + (low - 0xDC00) + 0x10000))
        ('\\' :: 'u' :: (text ++ '\\' :: 'u' :: text'))

/-- The characters of a string, and its text from behind the opening quote on. -/
inductive StringText : List Char → List Char → Prop
  | close : StringText [] ['"']
  | char {c : Char} {cs text texts : List Char} (h : SpellsChar c text)
      (hs : StringText cs texts) : StringText (c :: cs) (text ++ texts)

/-! ## Numbers -/

/-- Nothing but decimal digits. -/
def Digits (text : List Char) : Prop := ∀ c ∈ text, c.isDigit

/-- A whole part: no zero stands before another digit. -/
inductive WholeText : List Char → Prop
  | zero : WholeText ['0']
  | digits {d : Char} {ds : List Char} (hd : d.isDigit) (hzero : d ≠ '0') (hds : Digits ds) :
      WholeText (d :: ds)

/-- A fraction, if there is one. -/
inductive FractionText : List Char → Prop
  | none : FractionText []
  | some {d : Char} {ds : List Char} (hd : d.isDigit) (hds : Digits ds) :
      FractionText ('.' :: d :: ds)

/-- An exponent, if there is one. -/
inductive ExponentText : List Char → Prop
  | none : ExponentText []
  | some {e : Char} {sign : List Char} {d : Char} {ds : List Char} (he : e = 'e' ∨ e = 'E')
      (hsign : sign = [] ∨ sign = ['+'] ∨ sign = ['-']) (hd : d.isDigit) (hds : Digits ds) :
      ExponentText (e :: (sign ++ d :: ds))

/-- A number without its sign. -/
inductive MagnitudeText : List Char → Prop
  | parts {whole fraction exponent : List Char} (hwhole : WholeText whole)
      (hfraction : FractionText fraction) (hexponent : ExponentText exponent) :
      MagnitudeText (whole ++ (fraction ++ exponent))

/-! ## Lists and objects -/

/-- What stands before an item: blanks, and behind another item also a comma. -/
inductive Lead : Bool → List Char → Prop
  | first {blanks : List Char} (hb : Blank blanks) : Lead true blanks
  | later {blanks blanks' : List Char} (hb : Blank blanks) (hb' : Blank blanks') :
      Lead false (blanks ++ ',' :: blanks')

/-- The items of a list whose texts `R` tells, and its text from behind the opening bracket on, or,
unless these are the `first`, from behind an item on. -/
inductive ListText {β : Type} (R : β → List Char → Prop) : Bool → List β → List Char → Prop
  | close {first : Bool} {blanks : List Char} (hb : Blank blanks) :
      ListText R first [] (blanks ++ [']'])
  | item {first : Bool} {lead : List Char} {x : β} {text : List Char} {xs : List β}
      {texts : List Char} (hlead : Lead first lead) (h : R x text)
      (hs : ListText R false xs texts) :
      ListText R first (x :: xs) (lead ++ (text ++ texts))

/-- The members of an object in the same way. -/
inductive ObjectText {β : Type} (R : β → List Char → Prop) :
    Bool → List (String × β) → List Char → Prop
  | close {first : Bool} {blanks : List Char} (hb : Blank blanks) :
      ObjectText R first [] (blanks ++ ['\x7d'])
  | member {first : Bool} {lead key keyText blanks blanks' : List Char} {x : β} {text : List Char}
      {xs : List (String × β)} {texts : List Char} (hlead : Lead first lead)
      (hkey : StringText key keyText) (hb : Blank blanks) (hb' : Blank blanks') (h : R x text)
      (hs : ObjectText R false xs texts) :
      ObjectText R first ((String.ofList key, x) :: xs)
        (lead ++ '"' :: (keyText ++ (blanks ++ ':' :: (blanks' ++ (text ++ texts)))))

/-! ## Values -/

/-- A number without its sign, as it is spelled. -/
structure Numeral where
  text : List Char
  spelled : MagnitudeText text

/-- A value as a text has it. -/
inductive Tree
  | null
  | boolean (value : Bool)
  | number (negative : Bool) (magnitude : Numeral)
  | string (value : String)
  | list (items : List Tree)
  | object (members : List (String × Tree))

/-- A value and a text of it, without blanks around it. -/
inductive Spells : Tree → List Char → Prop
  | nullWord : Spells .null ['n', 'u', 'l', 'l']
  | trueWord : Spells (.boolean true) ['t', 'r', 'u', 'e']
  | falseWord : Spells (.boolean false) ['f', 'a', 'l', 's', 'e']
  | positive (numeral : Numeral) : Spells (.number false numeral) numeral.text
  | negative (numeral : Numeral) : Spells (.number true numeral) ('-' :: numeral.text)
  | string {cs text : List Char} (h : StringText cs text) :
      Spells (.string (String.ofList cs)) ('"' :: text)
  | list {items : List Tree} {text : List Char} (h : ListText Spells true items text) :
      Spells (.list items) ('[' :: text)
  | object {members : List (String × Tree)} {text : List Char}
      (h : ObjectText Spells true members text) : Spells (.object members) ('\x7b' :: text)

/-- What holds of a value if it holds of its parts. -/
theorem Tree.induct {P : Tree → Prop} (null : P .null) (boolean : ∀ value, P (.boolean value))
    (number : ∀ negative magnitude, P (.number negative magnitude))
    (string : ∀ value, P (.string value))
    (list : ∀ items, (∀ item ∈ items, P item) → P (.list items))
    (object : ∀ members, (∀ m ∈ members, P m.2) → P (.object members)) (tree : Tree) : P tree :=
  @Tree.rec P (fun items => ∀ item ∈ items, P item) (fun members => ∀ m ∈ members, P m.2)
    (fun m => P m.2) null boolean number string list object nofun
    (fun _ _ h hs => List.forall_mem_cons.2 ⟨h, hs⟩) nofun
    (fun _ _ h hs => List.forall_mem_cons.2 ⟨h, hs⟩) (fun _ _ h => h) tree

theorem ListText.imp {β : Type} {R R' : β → List Char → Prop} {first : Bool} {xs : List β}
    {text : List Char} (h : ListText R first xs text)
    (himp : ∀ x ∈ xs, ∀ text, R x text → R' x text) : ListText R' first xs text := by
  induction h with
  | close hb => exact .close hb
  | item hlead h _ ih =>
    obtain ⟨hx, hxs⟩ := List.forall_mem_cons.1 himp
    exact .item hlead (hx _ h) (ih hxs)

theorem ObjectText.imp {β : Type} {R R' : β → List Char → Prop} {first : Bool}
    {xs : List (String × β)} {text : List Char} (h : ObjectText R first xs text)
    (himp : ∀ x ∈ xs, ∀ text, R x.2 text → R' x.2 text) : ObjectText R' first xs text := by
  induction h with
  | close hb => exact .close hb
  | member hlead hkey hb hb' h _ ih =>
    obtain ⟨hx, hxs⟩ := List.forall_mem_cons.1 himp
    exact .member hlead hkey hb hb' (hx _ h) (ih hxs)

/-! ## How a text begins and goes on -/

/-- A text begins as a value does: with no blank, no comma and no closing bracket. -/
def Begins (text : List Char) : Prop :=
  ∃ c rest, text = c :: rest ∧ isBlank c = false ∧ c ≠ ']' ∧ c ≠ '\x7d' ∧ c ≠ ','

theorem Begins.append {text : List Char} (h : Begins text) (rest : List Char) :
    Begins (text ++ rest) := by
  obtain ⟨c, r, rfl, hc⟩ := h
  exact ⟨c, r ++ rest, rfl, hc⟩

theorem begins_of_digit {c : Char} (hc : c.isDigit) (rest : List Char) : Begins (c :: rest) := by
  refine ⟨c, rest, rfl, ?_, ?_, ?_, ?_⟩
  · cases hblank : isBlank c with
    | false => rfl
    | true =>
      simp only [isBlank, Bool.or_eq_true, decide_eq_true_eq] at hblank
      rcases hblank with ((rfl | rfl) | rfl) | rfl <;> cases hc
  all_goals rintro rfl; cases hc

theorem MagnitudeText.exists_digit {text : List Char} (h : MagnitudeText text) :
    ∃ d rest, text = d :: rest ∧ d.isDigit := by
  cases h with
  | parts hwhole =>
    cases hwhole with
    | zero => exact ⟨'0', _, rfl, rfl⟩
    | digits hd => exact ⟨_, _, rfl, hd⟩

theorem Spells.begins {tree : Tree} {text : List Char} (h : Spells tree text) : Begins text := by
  cases h with
  | positive numeral =>
    obtain ⟨d, rest, htext, hd⟩ := numeral.spelled.exists_digit
    exact htext ▸ begins_of_digit hd rest
  | _ => exact ⟨_, _, rfl, by decide, by decide, by decide, by decide⟩

/-- Blanks, and then something that stops a value. -/
theorem Stops.blank_append {blanks text : List Char} (hb : Blank blanks) (h : Stops text) :
    Stops (blanks ++ text) := by
  cases blanks with
  | nil => exact h
  | cons b blanks =>
    rintro _ ⟨⟩
    exact .inl (hb b List.mem_cons_self)

theorem stops_cons {c : Char} (h : c = ',' ∨ c = ']' ∨ c = '\x7d') (text : List Char) :
    Stops (c :: text) := by
  rintro _ ⟨⟩
  exact .inr h

/-- Behind an item, the text of a list stops it. -/
theorem ListText.stops {β : Type} {R : β → List Char → Prop} {xs : List β} {text : List Char}
    (h : ListText R false xs text) (rest : List Char) : Stops (text ++ rest) := by
  cases h with
  | close hb =>
    rw [List.append_assoc]
    exact .blank_append hb (stops_cons (by decide) rest)
  | item hlead =>
    cases hlead with
    | later hb =>
      rw [List.append_assoc, List.append_assoc]
      exact .blank_append hb (stops_cons (by decide) _)

theorem ObjectText.stops {β : Type} {R : β → List Char → Prop} {xs : List (String × β)}
    {text : List Char} (h : ObjectText R false xs text) (rest : List Char) :
    Stops (text ++ rest) := by
  cases h with
  | close hb =>
    rw [List.append_assoc]
    exact .blank_append hb (stops_cons (by decide) rest)
  | member hlead =>
    cases hlead with
    | later hb =>
      rw [List.append_assoc, List.append_assoc]
      exact .blank_append hb (stops_cons (by decide) _)

end ResumableUpload.Json
