import Mathlib.Data.List.Forall2
import Mathlib.Data.List.TakeWhile
import ResumableUpload.Proofs.Json.Likeness

/-!
# Objects are read exactly

Whether a record accepts the text of an object, and as what, told by the texts of its members alone:
no name of a field may come twice, the mandatory ones must come, and what each says its field must
accept (`Fields.Admits`); then each field has the value that its member says, or else its value for
absence (`Fields.Gets`). The order of the members, the blanks, and members with other names appear
in neither.
-/

namespace ResumableUpload

open Json

variable {α τ : Type}

/-! ## Objects by their members' texts -/

namespace Json

/-- A text of a value, with blanks around it. -/
inductive IsText (tree : Tree) : String → Prop
  | blanks {blanks text blanks' : List Char} (hb : Blank blanks) (h : Spells tree text)
      (hb' : Blank blanks') : IsText tree (String.ofList (blanks ++ (text ++ blanks')))

/-- The text of an object with blanks around it, and its members with the texts of their values. -/
inductive IsObject (members : List (String × List Char)) : String → Prop
  | blanks {blanks text blanks' : List Char} (hb : Blank blanks)
      (h : ObjectText (fun value text => value = text ∧ ∃ tree, Spells tree text) true members text)
      (hb' : Blank blanks') :
      IsObject members (String.ofList (blanks ++ ('\x7b' :: text ++ blanks')))

/-- The text is one of a value in which no raw value stands where the type takes any value. -/
def Shape.LacksRaw (s : Shape) (text : String) : Prop := ∃ tree, IsText tree text ∧ ¬s.TakesRaw tree

/-- A member and the text of its value. -/
def Tells (m : String × Tree) (m' : String × List Char) : Prop := m.1 = m'.1 ∧ Spells m.2 m'.2

theorem ObjectText.exists_trees {first : Bool} {members : List (String × List Char)}
    {text : List Char} (h : ObjectText (fun value text => value = text ∧ ∃ tree, Spells tree text)
      first members text) :
    ∃ trees, List.Forall₂ Tells trees members ∧ ObjectText Spells first trees text := by
  induction h with
  | close hb => exact ⟨[], .nil, .close hb⟩
  | member hlead hkey hb hb' h _ ih =>
    obtain ⟨rfl, tree, hspelled⟩ := h
    obtain ⟨trees, htells, htext⟩ := ih
    exact ⟨_ :: trees, .cons ⟨rfl, hspelled⟩ htells, .member hlead hkey hb hb' hspelled htext⟩

theorem IsObject.exists_trees {members : List (String × List Char)} {text : String}
    (h : IsObject members text) :
    ∃ trees, List.Forall₂ Tells trees members ∧ IsText (.object trees) text := by
  cases h with
  | blanks hb h hb' =>
    obtain ⟨trees, htells, htext⟩ := h.exists_trees
    exact ⟨trees, htells, .blanks hb (.object htext) hb'⟩

/-- Where a type never takes any value, every object is such a text. -/
theorem IsObject.lacksRaw {members : List (String × List Char)} {text : String}
    (h : IsObject members text) {s : Shape} (hfree : ¬s.HasFree) : s.LacksRaw text := by
  obtain ⟨trees, -, htext⟩ := h.exists_trees
  exact ⟨.object trees, htext, fun hraw => hfree hraw.hasFree⟩

theorem valuesOf_tells {trees : List (String × Tree)} {members : List (String × List Char)}
    (h : List.Forall₂ Tells trees members) (key : String) :
    List.Forall₂ Spells (valuesOf key trees) (valuesOf key members) := by
  induction h with
  | nil => exact .nil
  | @cons m m' _ _ hm _ ih =>
    obtain ⟨hkey, hspelled⟩ := hm
    by_cases hmine : m'.1 = key
    · rw [valuesOf, valuesOf, if_pos hmine, if_pos (hkey.trans hmine)]
      exact .cons hspelled ih
    · rw [valuesOf, valuesOf, if_neg hmine, if_neg (hkey ▸ hmine)]
      exact ih

theorem mem_valuesOf {β : Type} {key : String} {value : β} {members : List (String × β)} :
    value ∈ valuesOf key members ↔ (key, value) ∈ members := by
  rw [valuesOf_eq_filterMap, List.mem_filterMap]
  constructor
  · rintro ⟨⟨k, v⟩, hm, hv⟩
    split at hv
    next hkey => cases hkey; cases hv; exact hm
    next => cases hv
  · exact fun hm => ⟨(key, value), hm, if_pos rfl⟩

end Json

/-! ## What the fields get -/

/-- The value that a field has of an object with these members. -/
inductive Field.Gets (f : Field α) (levels : Nat) (members : List (String × List Char))
    (value : α) : Prop
  | member {text : List Char} (hmember : valuesOf f.name members = [text])
      (hread : f.read levels text = .ok (value, []))
  | absent (hmember : valuesOf f.name members = []) (habsent : f.absent = some value)

/-- Why a field has a value of an object with these members. -/
structure Field.Admits (f : Field α) (levels : Nat) (members : List (String × List Char)) :
    Prop where
  once : (valuesOf f.name members).length ≤ 1
  present : f.absent = none → f.name ∈ members.map (·.1)
  accepted : ∀ m ∈ members, f.name = m.1 → ∃ value, f.read levels m.2 = .ok (value, [])

namespace Fields

/-- The values that the fields have of an object with these members. -/
def Gets (levels : Nat) (members : List (String × List Char)) : {τ : Type} → Fields τ → τ → Prop
  | _, .nil, _ => True
  | _, .cons head tail, (value, values) =>
    head.Gets levels members value ∧ tail.Gets levels members values

/-- The field with the name of the member, if there is one, accepts what the member says. -/
def Accepts (levels : Nat) (m : String × List Char) : {τ : Type} → Fields τ → Prop
  | _, .nil => True
  | _, .cons head tail =>
    (head.name = m.1 → ∃ value, head.read levels m.2 = .ok (value, [])) ∧ tail.Accepts levels m

/-- The names of the fields without a value for absence. -/
def mandatory : {τ : Type} → Fields τ → List String
  | _, .nil => []
  | _, .cons head tail =>
    match head.absent with
    | none => head.name :: tail.mandatory
    | some _ => tail.mandatory

/-- The names of the fields that accept null. -/
def nullable (levels : Nat) : {τ : Type} → Fields τ → List String
  | _, .nil => []
  | _, .cons head tail =>
    match head.read levels ['n', 'u', 'l', 'l'] with
    | .ok (_, []) => head.name :: tail.nullable levels
    | _ => tail.nullable levels

/-- Why an object with these members is accepted. -/
structure Admits (fs : Fields τ) (levels : Nat) (members : List (String × List Char)) : Prop where
  once : ∀ name ∈ fs.names, (valuesOf name members).length ≤ 1
  present : ∀ name ∈ fs.mandatory, name ∈ members.map (·.1)
  accepted : ∀ m ∈ members, fs.Accepts levels m

end Fields

/-! ## The fields get what the members say -/

theorem Json.mem_keys_iff {β : Type} {key : String} {members : List (String × β)} :
    key ∈ members.map (·.1) ↔ valuesOf key members ≠ [] := by
  constructor
  · rintro hkey hnone
    obtain ⟨m, hm, rfl⟩ := List.mem_map.1 hkey
    have hvalue : m.2 ∈ valuesOf m.1 members := mem_valuesOf.2 hm
    rw [hnone] at hvalue
    cases hvalue
  · intro hsome
    obtain ⟨value, hvalue⟩ := List.exists_mem_of_ne_nil _ hsome
    exact List.mem_map.2 ⟨_, mem_valuesOf.1 hvalue, rfl⟩

theorem Json.eq_ok_iff_toOption {r : Except ReadError α} {value : α} :
    r = .ok value ↔ r.toOption = some value :=
  ⟨fun h => h ▸ rfl, eq_ok_of_toOption⟩

/-- A text is read as the value that the reader makes of what it spells. -/
theorem Json.read_eq_ok_iff {read : Nat → List Char → Reading α}
    (hreads : Reads read (understood read)) {tree : Tree} {text : List Char}
    (h : Spells tree text) (levels : Nat) (value : α) :
    read levels text = .ok (value, []) ↔ understood read levels tree = some value := by
  rw [eq_ok_iff_toOption, hreads.toOption levels h]
  simp

theorem Field.settle_eq_some_iff {f : Field α} (hreads : Reads f.read (understood f.read))
    {trees : List (String × Tree)} {members : List (String × List Char)}
    (h : List.Forall₂ Tells trees members) (levels : Nat) (value : α) :
    f.settle levels none trees = some value ↔ f.Gets levels members value := by
  have hvalues := valuesOf_tells h f.name
  cases htrees : valuesOf f.name trees with
  | nil =>
    rw [htrees] at hvalues
    have hnone : valuesOf f.name members = [] := List.forall₂_nil_left_iff.1 hvalues
    rw [settle_absent htrees]
    constructor
    · exact .absent hnone
    · rintro (⟨hmember, -⟩ | ⟨-, habsent⟩)
      · cases hnone.symm.trans hmember
      · exact habsent
  | cons tree others =>
    rw [htrees] at hvalues
    obtain ⟨text, texts, hspelled, hothers, htexts⟩ := List.forall₂_cons_left_iff.1 hvalues
    cases others with
    | nil =>
      rw [List.forall₂_nil_left_iff.1 hothers] at htexts
      rw [settle_member htrees, ← read_eq_ok_iff hreads hspelled]
      constructor
      · exact .member htexts
      · rintro (⟨hmember, hvalue⟩ | ⟨hmember, -⟩)
        · cases htexts.symm.trans hmember
          exact hvalue
        · cases htexts.symm.trans hmember
    | cons =>
      -- Two members are one too many.
      obtain ⟨text', texts', -, -, rfl⟩ := List.forall₂_cons_left_iff.1 hothers
      have hsettle : f.settle levels none trees = none := by
        unfold settle
        rw [htrees]
      rw [hsettle]
      constructor
      · exact nofun
      · rintro (⟨hmember, -⟩ | ⟨hmember, -⟩) <;> cases htexts.symm.trans hmember

/-- A pair is there if both of its values are. -/
theorem Json.pair_eq_some_iff {β : Type} {first : Option α} {second : Option β} {x : α} {y : β} :
    (first.bind fun x => second.map (x, ·)) = some (x, y) ↔ first = some x ∧ second = some y := by
  cases first <;> cases second <;> simp

theorem Fields.gather_eq_some_iff {fs : Fields τ} (hlegible : fs.Legible)
    {trees : List (String × Tree)} {members : List (String × List Char)}
    (h : List.Forall₂ Tells trees members) (levels : Nat) (values : τ) :
    fs.gather levels trees = some values ↔ fs.Gets levels members values := by
  unfold gather
  induction fs with
  | nil => exact ⟨fun _ => trivial, fun _ => rfl⟩
  | cons head tail ih =>
    obtain ⟨value, values⟩ := values
    rw [Gets, ← Field.settle_eq_some_iff hlegible.1 h, ← ih hlegible.2, fresh, settle_cons,
      pair_eq_some_iff]

/-! ## Which objects are accepted -/

theorem Field.exists_gets_iff {f : Field α} {levels : Nat} {members : List (String × List Char)} :
    (∃ value, f.Gets levels members value) ↔ f.Admits levels members := by
  constructor
  · rintro ⟨value, ⟨hmember, hread⟩ | ⟨hmember, habsent⟩⟩
    · refine ⟨by simp [hmember], fun _ => mem_keys_iff.2 (by rw [hmember]; nofun), ?_⟩
      rintro ⟨key, text⟩ hm rfl
      have htext := mem_valuesOf.2 hm
      rw [hmember, List.mem_singleton] at htext
      exact ⟨value, htext ▸ hread⟩
    · refine ⟨by simp [hmember], fun hnone => ?_, fun m hm hname => ?_⟩
      · cases hnone.symm.trans habsent
      · exact absurd hmember (mem_keys_iff.1 (hname ▸ List.mem_map_of_mem hm))
  · rintro ⟨honce, hpresent, haccepted⟩
    match hmember : valuesOf f.name members with
    | [] =>
      cases habsent : f.absent with
      | none => exact absurd hmember (mem_keys_iff.1 (hpresent habsent))
      | some value => exact ⟨value, .absent hmember habsent⟩
    | [text] =>
      have hm : (f.name, text) ∈ members := mem_valuesOf.1 (by rw [hmember]; exact .head _)
      obtain ⟨value, hread⟩ := haccepted _ hm rfl
      exact ⟨value, .member hmember hread⟩
    | _ :: _ :: _ =>
      rw [hmember] at honce
      exact absurd honce (by simp)

namespace Fields

variable {levels : Nat} {members : List (String × List Char)}

theorem admits_cons {β : Type} {head : Field α} {tail : Fields β} :
    (Fields.cons head tail).Admits levels members ↔
      head.Admits levels members ∧ tail.Admits levels members := by
  constructor
  · rintro ⟨honce, hpresent, haccepted⟩
    obtain ⟨honceHead, honceTail⟩ := List.forall_mem_cons.1 honce
    rw [mandatory] at hpresent
    refine ⟨⟨honceHead, fun habsent => ?_, fun m hm => (haccepted m hm).1⟩,
      honceTail, ?_, fun m hm => (haccepted m hm).2⟩
    · rw [habsent] at hpresent
      exact hpresent _ (.head _)
    · cases habsent : head.absent with
      | none =>
        rw [habsent] at hpresent
        exact fun name hname => hpresent name (.tail _ hname)
      | some => rwa [habsent] at hpresent
  · rintro ⟨hhead, htail⟩
    refine ⟨List.forall_mem_cons.2 ⟨hhead.once, htail.once⟩, ?_,
      fun m hm => ⟨hhead.accepted m hm, htail.accepted m hm⟩⟩
    rw [mandatory]
    cases habsent : head.absent with
    | none => exact List.forall_mem_cons.2 ⟨hhead.present habsent, htail.present⟩
    | some => exact htail.present

theorem exists_gets_iff {fs : Fields τ} :
    (∃ values, fs.Gets levels members values) ↔ fs.Admits levels members := by
  induction fs with
  | nil => exact ⟨fun _ => ⟨nofun, nofun, fun _ _ => trivial⟩, fun _ => ⟨(), trivial⟩⟩
  | cons head tail ih =>
    rw [admits_cons, ← Field.exists_gets_iff, ← ih]
    constructor
    · rintro ⟨⟨value, values⟩, hvalue, hvalues⟩
      exact ⟨⟨value, hvalue⟩, values, hvalues⟩
    · rintro ⟨⟨value, hvalue⟩, values, hvalues⟩
      exact ⟨(value, values), hvalue, hvalues⟩

/-- A member with another name is nothing to the fields. -/
theorem accepts_of_notMem {fs : Fields τ} {m : String × List Char} (hname : m.1 ∉ fs.names) :
    fs.Accepts levels m := by
  induction fs with
  | nil => trivial
  | cons head tail ih =>
    rw [names, List.mem_cons, not_or] at hname
    exact ⟨fun h => absurd h.symm hname.1, ih hname.2⟩

theorem nullable_subset (fs : Fields τ) (levels : Nat) : fs.nullable levels ⊆ fs.names := by
  induction fs with
  | nil => exact List.Subset.refl _
  | cons head tail ih =>
    rw [nullable]
    split
    · exact List.cons_subset_cons _ ih
    · exact List.subset_cons_of_subset _ ih

/-- A field accepts null exactly if it is one of those that do. -/
theorem accepts_null_iff {fs : Fields τ} (hnames : fs.names.Nodup) {name : String}
    (hname : name ∈ fs.names) :
    fs.Accepts levels (name, ['n', 'u', 'l', 'l']) ↔ name ∈ fs.nullable levels := by
  induction fs with
  | nil => cases hname
  | cons head tail ih =>
    obtain ⟨hfresh, hnames⟩ := List.nodup_cons.1 hnames
    rw [Accepts, nullable]
    rcases List.mem_cons.1 hname with rfl | htail
    · have hother : head.name ∉ tail.nullable levels := fun h => hfresh (nullable_subset tail _ h)
      rw [and_iff_left (accepts_of_notMem hfresh)]
      split
      next value hread => exact ⟨fun _ => .head _, fun _ _ => ⟨value, hread⟩⟩
      next hread =>
        refine ⟨fun h => ?_, fun h => absurd h hother⟩
        obtain ⟨value, h⟩ := h rfl
        exact absurd h (hread value)
    · have hne : head.name ≠ name := fun h => hfresh (h ▸ htail)
      rw [and_iff_right fun h => absurd h hne, ih hnames htail]
      split
      · rw [List.mem_cons, or_iff_right hne.symm]
      · rfl

end Fields

/-! ## The codec of a record -/

namespace Codec

theorem decode_eq_ok_iff {c : Codec α} {text : String} {value : α} : c.decode text = .ok value ↔
    ∃ rest, Blank rest ∧ c.read levels text.toList = .ok (value, rest) := by
  have hblank : ∀ rest, (skipBlank rest).isEmpty ↔ Blank rest := fun rest => by
    rw [List.isEmpty_iff]
    exact List.dropWhile_eq_nil_iff
  rw [decode]
  cases c.read levels text.toList with
  | error e => simp
  | ok result =>
    obtain ⟨found, rest⟩ := result
    by_cases hrest : Blank rest
    · simp only [if_pos ((hblank rest).2 hrest), Except.ok.injEq, Prod.mk.injEq]
      exact ⟨fun h => ⟨rest, hrest, h, rfl⟩, fun ⟨_, _, h, _⟩ => h⟩
    · simp only [if_neg fun h => hrest ((hblank rest).1 h), reduceCtorEq, false_iff]
      rintro ⟨_, hb, heq⟩
      cases heq
      exact hrest hb

/-- A text in blanks is read by the value that it spells, and only blanks are left. -/
theorem exists_read_iff {c : Codec α} (hreads : Reads c.read (understood c.read)) {tree : Tree}
    {text : String} (h : IsText tree text) (depth : Nat) (value : α) :
    (∃ rest, Blank rest ∧ c.read depth text.toList = .ok (value, rest)) ↔
      understood c.read depth tree = some value := by
  cases h with
  | @blanks _ _ blanks' hb h hb' =>
    have hstops : Stops (blanks' ++ []) := .blank_append hb' stops_nil
    rw [List.append_nil] at hstops
    simp only [eq_ok_iff_toOption, String.toList_ofList, hreads depth h hb hstops,
      Option.map_eq_some_iff, Prod.mk.injEq]
    constructor
    · rintro ⟨_, -, _, hvalue, rfl, -⟩
      exact hvalue
    · exact fun hvalue => ⟨blanks', hb', value, hvalue, rfl, rfl⟩

/-- How a codec reads the texts of objects as these fields. The fields `mandatory` are those that
must come, the fields `nullable` are those that may be null, and `shapes` are what is looked at.
Where a field takes any value, raw values are left out. -/
structure ReadsObjects (c : Codec α) (fs : Fields τ) (unpack : α → τ)
    (mandatory nullable : List String) (shapes : List (String × Shape)) : Prop where
  mandatory_eq : fs.mandatory = mandatory
  accepts_null_iff (depth : Nat) : ∀ name ∈ fs.names,
    (fs.Accepts depth (name, ['n', 'u', 'l', 'l']) ↔ name ∈ nullable)
  /-- It accepts an object exactly if it must. -/
  accepts_iff {members : List (String × List Char)} {text : String} : IsObject members text →
    (Shape.record shapes).LacksRaw text →
    ((∃ value, c.decode text = .ok value) ↔ fs.Admits (levels - 1) members)
  /-- The value has what the fields get. -/
  gets_iff {members : List (String × List Char)} {text : String} : IsObject members text →
    (Shape.record shapes).LacksRaw text →
    ∀ value, (c.decode text = .ok value ↔ fs.Gets (levels - 1) members (unpack value))
  /-- The same of an object within another. -/
  gets_iff_inside {members : List (String × List Char)} {text : String} : IsObject members text →
    (Shape.record shapes).LacksRaw text →
    ∀ depth value, ((∃ rest, Blank rest ∧ c.read (depth + 1) text.toList = .ok (value, rest)) ↔
      fs.Gets depth members (unpack value))
  /-- Texts that only differ in what is not looked at are read as the same value. -/
  decode_iff {tree tree' : Tree} {text text' : String} : IsText tree text → IsText tree' text' →
    ¬(Shape.record shapes).TakesRaw tree → ¬(Shape.record shapes).TakesRaw tree' →
    Alike (.record shapes) tree tree' → ∀ value, (c.decode text = .ok value ↔
      c.decode text' = .ok value)

variable {title : String} {fs : Fields τ} {unpack : α → τ} {pack : τ → α}
  {shapes : List (String × Shape)}

/-- An object that stands anywhere is read as the record whose fields have what they get. -/
theorem exists_read_record_iff (hfits : fs.Fits shapes)
    (hunpack : ∀ values, unpack (pack values) = values)
    (hpack : ∀ value, pack (unpack value) = value) {members : List (String × List Char)}
    {text : String} (hobject : IsObject members text) (depth : Nat) (value : α) :
    (∃ rest, Blank rest ∧
      (Codec.record title fs unpack pack).read (depth + 1) text.toList = .ok (value, rest)) ↔
    fs.Gets depth members (unpack value) := by
  obtain ⟨trees, htells, htext⟩ := hobject.exists_trees
  have hlegible := hfits.understood.legible
  have hreads : Reads (Codec.record title fs unpack pack).read _ :=
    reads_record hlegible hfits.names
  have hmeaning : understood (Codec.record title fs unpack pack).read (depth + 1) (.object trees) =
      (fs.gather depth trees).map pack := by
    rw [← hreads.eq_understood]
    rfl
  rw [exists_read_iff (hreads.eq_understood ▸ hreads) htext, hmeaning,
    ← Fields.gather_eq_some_iff hlegible htells, Option.map_eq_some_iff]
  constructor
  · rintro ⟨values, hvalues, rfl⟩
    rw [hunpack, hvalues]
  · exact fun hvalues => ⟨unpack value, hvalues, hpack value⟩

/-- The same of a whole text. -/
theorem decode_record_eq_ok_iff (hfits : fs.Fits shapes)
    (hunpack : ∀ values, unpack (pack values) = values)
    (hpack : ∀ value, pack (unpack value) = value) {members : List (String × List Char)}
    {text : String} (hobject : IsObject members text) (value : α) :
    (Codec.record title fs unpack pack).decode text = .ok value ↔
      fs.Gets (levels - 1) members (unpack value) :=
  decode_eq_ok_iff.trans (exists_read_record_iff hfits hunpack hpack hobject (levels - 1) value)

theorem reads_objects {mandatory nullable : List String} (hfits : fs.Fits shapes)
    (hunpack : ∀ values, unpack (pack values) = values)
    (hpack : ∀ value, pack (unpack value) = value) (hmandatory : fs.mandatory = mandatory)
    (hnullable : ∀ depth, fs.nullable depth = nullable) :
    (Codec.record title fs unpack pack).ReadsObjects fs unpack mandatory nullable shapes where
  mandatory_eq := hmandatory
  accepts_null_iff depth name hname := by rw [Fields.accepts_null_iff hfits.names hname, hnullable]
  gets_iff_inside hobject _ := exists_read_record_iff hfits hunpack hpack hobject
  gets_iff hobject _ := decode_record_eq_ok_iff hfits hunpack hpack hobject
  accepts_iff hobject _ := by
    rw [← Fields.exists_gets_iff]
    simp only [decode_record_eq_ok_iff hfits hunpack hpack hobject]
    constructor
    · exact fun ⟨value, hvalue⟩ => ⟨unpack value, hvalue⟩
    · exact fun ⟨values, hvalues⟩ => ⟨pack values, by rwa [hunpack]⟩
  decode_iff htext htext' _ _ halike value := by
    have hunderstands : Understands (Codec.record title fs unpack pack).read (.record shapes) :=
      understands_record hfits
    rw [decode_eq_ok_iff, decode_eq_ok_iff, exists_read_iff hunderstands.reads htext,
      exists_read_iff hunderstands.reads htext', hunderstands.respects.alike halike]

end Codec

end ResumableUpload
