import ResumableUpload.Json.Record
import ResumableUpload.Proofs.Json.Codecs

/-!
# What records read

A record can be read from an object or from a list of its fields. Of an object, each field gets the
value of the one member that has its name, or, if there is none, its value for absence
(`Fields.gather`); that no member counts twice, and that none is left out, is what reading the
members one by one comes to (`bind_close`). Of a list, each field gets the item in its place
(`Fields.line`).
-/

namespace ResumableUpload

open Json

variable {α τ : Type}

/-! ## What the members of an object are to a record -/

section

variable {β : Type}

/-- The values of the members with a key, in their order. -/
def Json.valuesOf (key : String) : List (String × β) → List β
  | [] => []
  | (k, value) :: rest => if k = key then value :: valuesOf key rest else valuesOf key rest

theorem Json.valuesOf_cons_self (m : String × β) (rest : List (String × β)) :
    valuesOf m.1 (m :: rest) = m.2 :: valuesOf m.1 rest := if_pos rfl

theorem Json.valuesOf_cons_of_ne {key : String} {m : String × β} (h : key ≠ m.1)
    (rest : List (String × β)) : valuesOf key (m :: rest) = valuesOf key rest := if_neg h.symm

end

/-- The value that a field has after some members: the one of its slot, or of the one member with
its name, or the one for absence. -/
def Field.settle (f : Field α) (levels : Nat) (slot : Option α) (members : List (String × Tree)) :
    Option α :=
  match slot, valuesOf f.name members with
  | none, [] => f.absent
  | some value, [] => some value
  | none, [tree] => understood f.read levels tree
  | _, _ => none

theorem Field.settle_absent {f : Field α} {members : List (String × Tree)}
    (h : valuesOf f.name members = []) (levels : Nat) :
    f.settle levels none members = f.absent := by
  unfold Field.settle
  rw [h]

theorem Field.settle_member {f : Field α} {members : List (String × Tree)} {tree : Tree}
    (h : valuesOf f.name members = [tree]) (levels : Nat) :
    f.settle levels none members = understood f.read levels tree := by
  unfold Field.settle
  rw [h]

namespace Fields

/-- The names of the fields. -/
def names : {τ : Type} → Fields τ → List String
  | _, .nil => []
  | _, .cons head tail => head.name :: tail.names

/-- The value of the record after some members. -/
def settle (levels : Nat) (members : List (String × Tree)) :
    {τ : Type} → (fs : Fields τ) → fs.Slots → Option τ
  | _, .nil => fun _ => some ()
  | _, @cons α _ head tail => fun (slots : Option α × tail.Slots) =>
    (head.settle levels slots.1 members).bind fun value =>
      (settle levels members tail slots.2).map (value, ·)

/-- The value that the members of an object make a record have. -/
def gather (fs : Fields τ) (levels : Nat) (members : List (String × Tree)) : Option τ :=
  fs.settle levels members fs.fresh

/-- The value that the items of a list make a record have. -/
def line (levels : Nat) : {τ : Type} → Fields τ → List Tree → Option τ
  | _, .nil, [] => some ()
  | _, .nil, _ :: _ => none
  | _, .cons head tail, [] => head.absent.bind fun value => (tail.line levels []).map (value, ·)
  | _, .cons head tail, item :: items =>
    (understood head.read levels item).bind fun value => (tail.line levels items).map (value, ·)

/-- Every field goes by the value that is spelled. -/
def Legible : {τ : Type} → Fields τ → Prop
  | _, .nil => True
  | _, .cons head tail => Reads head.read (understood head.read) ∧ tail.Legible

/-- The slots after one member. -/
def fill (levels : Nat) : {τ : Type} → (fs : Fields τ) → fs.Slots → String × Tree → Option fs.Slots
  | _, .nil => fun _ _ => some ()
  | _, @cons α _ head tail => fun (slots : Option α × tail.Slots) m =>
    if head.name = m.1 then
      match slots.1 with
      | some _ => none
      | none => (understood head.read levels m.2).map fun value => (some value, slots.2)
    else (fill levels tail slots.2 m).map (slots.1, ·)

/-! ## One member -/

section

variable {β : Type} {head : Field α} {tail : Fields β} {levels : Nat} {m : String × Tree}
  {slots : tail.Slots}

theorem member_cons_repeated {key : String} (hname : head.name = key) (value : α) :
    member key (.cons head tail) ((some value, slots) : Option α × tail.Slots) = .repeated :=
  if_pos hname

theorem member_cons_wanted {key : String} (hname : head.name = key) :
    member key (.cons head tail) ((none, slots) : Option α × tail.Slots) =
      .wanted fun levels text =>
        (head.read levels text).map fun (value, rest) => ((some value, slots), rest) :=
  if_pos hname

theorem member_cons_of_ne {key : String} (hname : head.name ≠ key) (slot : Option α) :
    member key (.cons head tail) ((slot, slots) : Option α × tail.Slots) =
      (member key tail slots).behind slot :=
  if_neg hname

theorem fill_cons_some (hname : head.name = m.1) (value : α) :
    fill levels (.cons head tail) ((some value, slots) : Option α × tail.Slots) m = none :=
  if_pos hname

theorem fill_cons_none (hname : head.name = m.1) :
    fill levels (.cons head tail) ((none, slots) : Option α × tail.Slots) m =
      (understood head.read levels m.2).map fun value => (some value, slots) :=
  if_pos hname

theorem fill_cons_of_ne (hname : head.name ≠ m.1) (slot : Option α) :
    fill levels (.cons head tail) ((slot, slots) : Option α × tail.Slots) m =
      (fill levels tail slots m).map (slot, ·) :=
  if_neg hname

theorem settle_cons (members : List (String × Tree)) (slot : Option α) :
    settle levels members (.cons head tail) ((slot, slots) : Option α × tail.Slots) =
      (head.settle levels slot members).bind fun value =>
        (settle levels members tail slots).map (value, ·) :=
  rfl

theorem close_cons (slot : Option α) :
    close (.cons head tail) ((slot, slots) : Option α × tail.Slots) =
      match slot.or head.absent with
      | none => .error (.missingField head.name)
      | some value => (close tail slots).map (value, ·) :=
  rfl

end

/-- What a key means tells what becomes of the slots. -/
theorem member_fill {fs : Fields τ} (hlegible : fs.Legible) (levels : Nat) (slots : fs.Slots)
    (key : String) {tree : Tree} {text blanks rest : List Char} (h : Spells tree text)
    (hb : Blank blanks) (hrest : Stops rest) :
    match fs.member key slots with
    | .unknown => fs.fill levels slots (key, tree) = some slots
    | .repeated => fs.fill levels slots (key, tree) = none
    | .wanted reader => (reader levels (blanks ++ (text ++ rest))).toOption =
        (fs.fill levels slots (key, tree)).map (·, rest) := by
  induction fs with
  | nil => rfl
  | cons head tail ih =>
    obtain ⟨hhead, htail⟩ := hlegible
    obtain ⟨slot, slots⟩ := slots
    by_cases hname : head.name = key
    · cases slot with
      | some value =>
        rw [member_cons_repeated hname]
        exact fill_cons_some hname value
      | none =>
        rw [member_cons_wanted hname, fill_cons_none hname]
        exact toOption_map_value (hhead levels h hb hrest) fun value => (some value, slots)
    · have hrest := ih htail slots
      rw [member_cons_of_ne hname, fill_cons_of_ne hname]
      cases hmember : tail.member key slots with
      | unknown =>
        rw [hmember] at hrest
        exact congrArg (Option.map (slot, ·)) hrest
      | repeated =>
        rw [hmember] at hrest
        exact congrArg (Option.map (slot, ·)) hrest
      | wanted reader =>
        rw [hmember] at hrest
        exact toOption_map_value hrest (slot, ·)

/-- Reading one member fills the slots. -/
theorem toOption_readMember {fs : Fields τ} (hlegible : fs.Legible) (levels : Nat)
    (slots : fs.Slots) (key : String) {tree : Tree} {text blanks blanks' rest : List Char}
    (h : Spells tree text) (hb : Blank blanks) (hb' : Blank blanks') (hrest : Stops rest) :
    (fs.readMember levels slots key (blanks ++ ':' :: (blanks' ++ (text ++ rest)))).toOption =
      (fs.fill levels slots (key, tree)).map (·, rest) := by
  have hfill := member_fill hlegible levels slots key h hb' hrest
  rw [readMember]
  cases hmember : fs.member key slots with
  | unknown =>
    rw [hmember] at hfill
    simp only [colon_append hb, Skip.value_append h hb' hrest, hfill]
    rfl
  | repeated =>
    rw [hmember] at hfill
    simp only [hfill]
    rfl
  | wanted reader =>
    rw [hmember] at hfill
    simp only [colon_append hb]
    exact hfill

/-! ## All members -/

/-- A member with another name does not matter to a field. -/
theorem settle_cons_of_ne {f : Field α} {m : String × Tree} (hname : f.name ≠ m.1) (levels : Nat)
    (slot : Option α) (members : List (String × Tree)) :
    f.settle levels slot (m :: members) = f.settle levels slot members := by
  unfold Field.settle
  rw [valuesOf_cons_of_ne hname]

/-- A member with an unknown name does not matter to a record. -/
theorem settle_cons_of_notMem {fs : Fields τ} {m : String × Tree} (hname : m.1 ∉ fs.names)
    (levels : Nat) (slots : fs.Slots) (members : List (String × Tree)) :
    fs.settle levels (m :: members) slots = fs.settle levels members slots := by
  induction fs with
  | nil => rfl
  | cons head tail ih =>
    rw [names, List.mem_cons, not_or] at hname
    obtain ⟨slot, slots⟩ := slots
    rw [settle_cons, settle_cons, ih hname.2, settle_cons_of_ne (Ne.symm hname.1)]

/-- A field that is filled by a member has the same value in the end. -/
theorem bind_settle {f : Field α} {m : String × Tree} (hname : f.name = m.1) (levels : Nat)
    (members : List (String × Tree)) :
    ((understood f.read levels m.2).bind fun value => f.settle levels (some value) members) =
      f.settle levels none (m :: members) := by
  unfold Field.settle
  rw [hname, valuesOf_cons_self]
  cases valuesOf m.1 members with
  | nil => exact Option.bind_fun_some _
  | cons => cases understood f.read levels m.2 <;> rfl

/-- What a member does to the slots is what it does in the end. -/
theorem bind_fill {fs : Fields τ} (hnames : fs.names.Nodup) (levels : Nat) (m : String × Tree)
    (slots : fs.Slots) (members : List (String × Tree)) :
    ((fs.fill levels slots m).bind fun slots => fs.settle levels members slots) =
      fs.settle levels (m :: members) slots := by
  induction fs with
  | nil => rfl
  | cons head tail ih =>
    obtain ⟨hhead, htail⟩ := List.nodup_cons.1 hnames
    obtain ⟨slot, slots⟩ := slots
    by_cases hname : head.name = m.1
    · have hrest := settle_cons_of_notMem (hname ▸ hhead) levels slots members
      cases slot with
      | some value =>
        have htwice : head.settle levels (some value) (m :: members) = none := by
          unfold Field.settle
          rw [hname, valuesOf_cons_self]
        rw [fill_cons_some hname, settle_cons, htwice]
        rfl
      | none =>
        rw [fill_cons_none hname, settle_cons, ← bind_settle hname, hrest]
        cases understood head.read levels m.2 <;> rfl
    · rw [fill_cons_of_ne hname, settle_cons, settle_cons_of_ne hname, ← ih htail slots]
      cases fill levels tail slots m with
      | none => cases head.settle levels slot members <;> rfl
      | some slots => rfl

/-- Filling the slots member by member and closing them in the end is settling them at once. -/
theorem bind_close {fs : Fields τ} (hnames : fs.names.Nodup) (levels : Nat)
    (members : List (String × Tree)) (slots : fs.Slots) :
    ((members.foldlM (fs.fill levels) slots).bind fun slots =>
      (fs.close slots).toOption) = fs.settle levels members slots := by
  induction members generalizing slots with
  | nil =>
    show (fs.close slots).toOption = _
    induction fs with
    | nil => rfl
    | cons head tail ih =>
      obtain ⟨-, htail⟩ := List.nodup_cons.1 hnames
      obtain ⟨slot, slots⟩ := slots
      have hhead : head.settle levels slot [] = slot.or head.absent := by cases slot <;> rfl
      rw [settle_cons, ← ih htail slots, hhead, close_cons]
      cases slot.or head.absent with
      | none => rfl
      | some value => exact toOption_map _ _
  | cons m members ih =>
    rw [← bind_fill hnames, List.foldlM_cons]
    cases fs.fill levels slots m with
    | none => rfl
    | some slots => exact ih slots

/-! ## The two forms of a record -/

/-- An object gives the record what its members make of it. -/
theorem toOption_readObject {fs : Fields τ} (hlegible : fs.Legible) (hnames : fs.names.Nodup)
    {members : List (String × Tree)} {text : List Char} (h : ObjectText Spells true members text)
    (levels : Nat) (rest : List Char) :
    (fs.readObject levels (text ++ rest)).toOption =
      (fs.gather levels members).map (·, rest) := by
  have hmembers := members_append (fun _ _ h slots key blanks blanks' rest hb hb' hrest =>
      toOption_readMember hlegible levels slots key h hb hb' hrest) h
    (show text.length ≤ (text ++ rest).length + 1 by simp; omega) fs.fresh rest
  have hclose := bind_close hnames levels members fs.fresh
  rw [readObject, gather, ← hclose]
  cases hslots : members.foldlM (fs.fill levels) fs.fresh with
  | none =>
    obtain ⟨e, he⟩ := eq_error_of_toOption (hslots ▸ hmembers)
    rw [he]
    rfl
  | some slots =>
    rw [hslots] at hmembers
    rw [eq_ok_of_toOption hmembers]
    exact toOption_map _ _

/-- A list gives each field the item in its place. -/
theorem toOption_readList (whole : String) {fs : Fields τ} (hlegible : fs.Legible) {first : Bool}
    {items : List Tree} {text : List Char} (h : ListText Spells first items text)
    (levels index : Nat) (rest : List Char) :
    (fs.readList whole levels index first (text ++ rest)).toOption =
      (fs.line levels items).map (·, rest) := by
  induction fs generalizing first items text index with
  | nil =>
    cases h with
    | close hb =>
      rw [readList, List.append_assoc, List.singleton_append, closeList_append hb]
      rfl
    | @item _ lead item text items texts hlead h hs =>
      obtain ⟨e, he⟩ := closeList_lead hlead (h.begins.append (texts ++ rest))
      rw [← List.append_assoc text, ← List.append_assoc lead] at he
      rw [readList, he]
      rfl
  | cons head tail ih =>
    obtain ⟨hhead, htail⟩ := hlegible
    cases h with
    | @close _ blanks hb =>
      rw [readList, List.append_assoc, List.singleton_append, nextItem_close hb, line]
      simp only
      cases head.absent with
      | none => rfl
      | some value =>
        have hrest := @ih htail first _ _ (.close hb) (index + 1)
        rw [List.append_assoc] at hrest
        exact toOption_map_value hrest (value, ·)
    | @item _ lead item text items texts hlead h hs =>
      have hitem := hhead levels h blank_nil (hs.stops rest)
      rw [List.nil_append] at hitem
      rw [readList, List.append_assoc, List.append_assoc,
        nextItem_lead hlead (h.begins.append (texts ++ rest)), line]
      simp only
      cases hvalue : understood head.read levels item with
      | none =>
        obtain ⟨e, he⟩ := eq_error_of_toOption (hvalue ▸ hitem)
        rw [he]
        rfl
      | some value =>
        rw [hvalue] at hitem
        rw [eq_ok_of_toOption hitem]
        exact toOption_map_value (ih htail hs (index + 1)) (value, ·)

/-- What a record is read as. -/
def meaning (fs : Fields τ) : Meaning τ := fun levels tree =>
  match tree, levels with
  | .object members, levels + 1 => fs.gather levels members
  | .list items, levels + 1 => fs.line levels items
  | _, _ => none

end Fields

theorem Codec.reads_record {title : String} {fs : Fields τ} {unpack : α → τ} {pack : τ → α}
    (hlegible : fs.Legible) (hnames : fs.names.Nodup) :
    Reads (Codec.record title fs unpack pack).read fun levels tree =>
      (fs.meaning levels tree).map pack := by
  intro levels tree text blanks rest hspelled hb hrest
  simp only [Codec.record, skipBlank_spelled hspelled hb]
  cases hspelled with
  | positive numeral =>
    obtain ⟨d, r, htext, hd⟩ := numeral.spelled.exists_digit
    rw [htext, List.cons_append]
    split
    next heq => cases heq
    next heq => cases heq; cases hd
    next heq => cases heq; cases hd
    next => rfl
  | list h =>
    cases levels with
    | zero => rfl
    | succ levels =>
      exact toOption_map_value (Fields.toOption_readList _ hlegible h levels 0 rest) pack
  | object h =>
    cases levels with
    | zero => rfl
    | succ levels =>
      exact toOption_map_value (Fields.toOption_readObject hlegible hnames h levels rest) pack
  | _ => rfl

end ResumableUpload
