import Mathlib.Logic.Relation
import ResumableUpload.Proofs.Json.Records

/-!
# Values that read alike

Two values read alike if they only differ in what a type does not look at: the order of members, and
members that no field asks for. Where that is allowed, the `Shape` of a type tells, at every depth;
an `Edit` is one such difference somewhere in a value, and values are `Alike` if edits lead from one
to the other. (Blanks and escapes are no part of a value to begin with.)

In a free-form value the order of two members is looked at if they have one key, since the last of
them counts. Otherwise no edit changes what a reader makes of a value (`Understands`).

Free-form values may stand for raw values if they begin with a certain key, and what these are read
as is not decided (`Json.rawKey`). Where a type takes any value, such an object has to be left out
of what is said about its reader (`Shape.TakesRaw`).
-/

namespace ResumableUpload

namespace Json

/-- What a type looks at. -/
inductive Shape
  /-- The whole value. -/
  | leaf
  /-- All of it but the order of members with different keys. -/
  | free
  /-- Null, or what the shape tells. -/
  | nullable (value : Shape)
  | list (item : Shape)
  /-- The members with these keys, in whichever order, or the items in this order. -/
  | record (fields : List (String × Shape))

/-- An object within the value begins as one that stands for a raw value. -/
inductive Tree.HasRaw : Tree → Prop
  | here (value : Tree) (rest : List (String × Tree)) : HasRaw (.object ((rawKey, value) :: rest))
  | item {items : List Tree} {t : Tree} (hmem : t ∈ items) (h : HasRaw t) : HasRaw (.list items)
  | member {members : List (String × Tree)} {m : String × Tree} (hmem : m ∈ members)
      (h : HasRaw m.2) : HasRaw (.object members)

theorem Tree.hasRaw_object_iff {members : List (String × Tree)} : (Tree.object members).HasRaw ↔
    members.head?.map (·.1) = some rawKey ∨ ∃ m ∈ members, m.2.HasRaw := by
  constructor
  · rintro (_ | _ | ⟨hmem, h⟩)
    · exact .inl rfl
    · exact .inr ⟨_, hmem, h⟩
  · rintro (hfirst | ⟨m, hmem, h⟩)
    · obtain ⟨⟨key, value⟩, hhead, rfl⟩ := Option.map_eq_some_iff.1 hfirst
      obtain ⟨rest, rfl⟩ := List.head?_eq_some_iff.1 hhead
      exact .here value rest
    · exact .member hmem h

/-- Such an object stands where the type takes any value. -/
inductive Shape.TakesRaw : Shape → Tree → Prop
  | free {t : Tree} (h : t.HasRaw) : TakesRaw .free t
  | nullable {s : Shape} {t : Tree} (h : TakesRaw s t) : TakesRaw s.nullable t
  | item {s : Shape} {items : List Tree} {t : Tree} (hmem : t ∈ items) (h : TakesRaw s t) :
      TakesRaw s.list (.list items)
  | member {fields : List (String × Shape)} {members : List (String × Tree)} {key : String}
      {s : Shape} {t : Tree} (hfield : (key, s) ∈ fields) (hmem : (key, t) ∈ members)
      (h : TakesRaw s t) : TakesRaw (.record fields) (.object members)
  | place {fields : List (String × Shape)} {items : List Tree} {i : Nat} {name : String}
      {s : Shape} {t : Tree} (hfield : fields[i]? = some (name, s)) (hitem : items[i]? = some t)
      (h : TakesRaw s t) : TakesRaw (.record fields) (.list items)

/-- Somewhere the type takes any value. -/
inductive Shape.HasFree : Shape → Prop
  | free : HasFree .free
  | nullable {s : Shape} (h : HasFree s) : HasFree s.nullable
  | item {s : Shape} (h : HasFree s) : HasFree s.list
  | field {fields : List (String × Shape)} {f : String × Shape} (hmem : f ∈ fields)
      (h : HasFree f.2) : HasFree (.record fields)

theorem Shape.TakesRaw.hasFree {s : Shape} {t : Tree} (h : s.TakesRaw t) : s.HasFree := by
  induction h with
  | free => exact .free
  | nullable _ ih => exact .nullable ih
  | item _ _ ih => exact .item ih
  | member hfield _ _ ih => exact .field hfield ih
  | place hfield _ _ ih => exact .field (List.mem_of_getElem? hfield) ih

/-- One difference in what is not looked at. -/
inductive Edit : Shape → Tree → Tree → Prop
  | nullable {s : Shape} {t t' : Tree} (h : Edit s t t') : Edit (.nullable s) t t'
  | item {s : Shape} {t t' : Tree} (before after : List Tree) (h : Edit s t t') :
      Edit (.list s) (.list (before ++ t :: after)) (.list (before ++ t' :: after))
  | order {fields : List (String × Shape)} {ms ms' : List (String × Tree)} (h : ms.Perm ms') :
      Edit (.record fields) (.object ms) (.object ms')
  | unknown {fields : List (String × Shape)} {m : String × Tree} (h : m.1 ∉ fields.map (·.1))
      (ms : List (String × Tree)) : Edit (.record fields) (.object (m :: ms)) (.object ms)
  | member {fields : List (String × Shape)} {key : String} {s : Shape} {t t' : Tree}
      (hfield : (key, s) ∈ fields) (h : Edit s t t') (ms : List (String × Tree)) :
      Edit (.record fields) (.object ((key, t) :: ms)) (.object ((key, t') :: ms))
  | place {fields : List (String × Shape)} {name : String} {s : Shape} {t t' : Tree}
      (before after : List Tree) (hfield : fields[before.length]? = some (name, s))
      (h : Edit s t t') :
      Edit (.record fields) (.list (before ++ t :: after)) (.list (before ++ t' :: after))
  | freeItem {t t' : Tree} (before after : List Tree) (h : Edit .free t t') :
      Edit .free (.list (before ++ t :: after)) (.list (before ++ t' :: after))
  | freeMember {t t' : Tree} (before : List (String × Tree)) (key : String)
      (after : List (String × Tree)) (h : Edit .free t t') :
      Edit .free (.object (before ++ (key, t) :: after)) (.object (before ++ (key, t') :: after))
  | freeOrder (before : List (String × Tree)) {m m' : String × Tree} (h : m.1 ≠ m'.1)
      (after : List (String × Tree)) :
      Edit .free (.object (before ++ m :: m' :: after)) (.object (before ++ m' :: m :: after))

/-- Edits lead from one value to the other. -/
def Alike (s : Shape) : Tree → Tree → Prop := Relation.EqvGen (Edit s)

variable {α β : Type} {s : Shape} {t t' : Tree}

theorem Edit.ne_null (h : Edit s t t') : t ≠ .null ∧ t' ≠ .null := by
  induction h with
  | nullable _ ih => exact ih
  | _ => exact ⟨nofun, nofun⟩

/-- No edit changes what the value means. -/
def Respects (m : Meaning α) (s : Shape) : Prop :=
  ∀ (levels : Nat) {t t' : Tree}, Edit s t t' → m levels t = m levels t'

/-- Neither do many. -/
theorem Respects.alike {m : Meaning α} (h : Respects m s) (halike : Alike s t t') (levels : Nat) :
    m levels t = m levels t' := by
  induction halike with
  | rel _ _ hedit => exact h levels hedit
  | refl => rfl
  | symm _ _ _ ih => exact ih.symm
  | trans _ _ _ _ _ ih ih' => exact ih.trans ih'

/-- A reader goes by the value that is spelled, and looks at no more of it than the shape tells. -/
structure Understands (read : Nat → List Char → Reading α) (s : Shape) : Prop where
  reads : Reads read (understood read)
  respects : Respects (understood read) s

theorem Reads.understands {read : Nat → List Char → Reading α} {m : Meaning α} (h : Reads read m)
    (hm : Respects m s) : Understands read s := by
  have heq := h.eq_understood
  subst heq
  exact ⟨h, hm⟩

theorem respects_leaf (m : Meaning α) : Respects m .leaf := nofun

theorem Respects.map {m : Meaning α} (h : Respects m s) (f : α → β) :
    Respects (fun levels tree => (m levels tree).map f) s :=
  fun levels _ _ hedit => congrArg (Option.map f) (h levels hedit)

theorem Respects.nullable {m : Meaning α} (h : Respects m s) : Respects m.nullable s.nullable := by
  intro levels t t' hedit
  cases hedit with
  | nullable hedit =>
    rw [m.nullable_of_ne_null levels hedit.ne_null.1, m.nullable_of_ne_null levels hedit.ne_null.2,
      h levels hedit]

theorem Respects.list {m : Meaning α} (h : Respects m s) : Respects m.list s.list := by
  intro levels t t' hedit
  cases hedit with
  | item before after hedit =>
    cases levels with
    | zero => rfl
    | succ levels =>
      simp only [Meaning.list, List.mapM_append, List.mapM_cons, h levels hedit]

/-! ## Free-form values -/

/-- Members with different keys are put in their places in either order. -/
theorem insert_comm {key key' : String} (h : key ≠ key') (value value' : Json)
    (members : List (String × Json)) :
    insert key value (insert key' value' members) =
      insert key' value' (insert key value members) := by
  induction members with
  | nil => grind [insert]
  | cons m members ih => grind [insert]

/-- Two members with different keys are put in their places, if both are accepted. -/
theorem jsonMember_comm {levels : Nat} {m m' : String × Tree} (h : m.1 ≠ m'.1)
    (acc : List (String × Json)) (next : List (String × Json) → Option β) :
    (Meaning.jsonMember levels acc m >>= fun acc => Meaning.jsonMember levels acc m' >>= next) =
      (Meaning.jsonMember levels acc m' >>= fun acc =>
        Meaning.jsonMember levels acc m >>= next) := by
  unfold Meaning.jsonMember
  cases Meaning.json levels m.2 with
  | none => cases Meaning.json levels m'.2 <;> rfl
  | some value =>
    cases Meaning.json levels m'.2 with
    | none => rfl
    | some value' => exact congrArg next (insert_comm h.symm value' value acc)

theorem respects_json : Respects Meaning.json .free := by
  intro levels t t' hedit
  generalize hs : Shape.free = s at hedit
  induction hedit generalizing levels with
  | freeItem before after _ ih =>
    cases levels with
    | zero => rfl
    | succ levels =>
      simp only [Meaning.json, Meaning.jsonItems_eq_mapM, List.mapM_append, List.mapM_cons,
        ih levels hs]
  | freeMember before key after _ ih =>
    cases levels with
    | zero => rfl
    | succ levels =>
      simp only [Meaning.json, Meaning.jsonMembers_eq_foldlM, List.foldlM_append,
        List.foldlM_cons, Meaning.jsonMember, ih levels hs]
  | @freeOrder before m m' h after =>
    cases levels with
    | zero => rfl
    | succ levels =>
      simp only [Meaning.json, Meaning.jsonMembers_eq_foldlM, List.foldlM_append,
        List.foldlM_cons, jsonMember_comm h]
  | _ => cases hs

/-! ## Records -/

theorem valuesOf_eq_filterMap (key : String) (ms : List (String × β)) :
    valuesOf key ms = ms.filterMap fun m => if m.1 = key then some m.2 else none := by
  induction ms with
  | nil => rfl
  | cons m ms ih =>
    rw [valuesOf, ih, List.filterMap_cons]
    split <;> rfl

/-- In whichever order the members stand, a field has the same value. -/
theorem settle_perm {ms ms' : List (String × Tree)} (h : ms.Perm ms') (f : Field α) (levels : Nat)
    (slot : Option α) : f.settle levels slot ms = f.settle levels slot ms' := by
  have hvalues : (valuesOf f.name ms).Perm (valuesOf f.name ms') := by
    rw [valuesOf_eq_filterMap, valuesOf_eq_filterMap]
    exact h.filterMap _
  unfold Field.settle
  cases hold : valuesOf f.name ms with
  | nil => rw [hold] at hvalues; rw [hvalues.nil_eq]
  | cons value values =>
    rw [hold] at hvalues
    cases values with
    | nil => rw [List.singleton_perm.1 hvalues]
    | cons value' values =>
      -- Two values are too many, whichever they are.
      obtain ⟨v, v', vs, hnew⟩ : ∃ v v' vs, valuesOf f.name ms' = v :: v' :: vs := by
        match hnew : valuesOf f.name ms', hvalues.length_eq with
        | v :: v' :: vs, _ => exact ⟨v, v', vs, rfl⟩
      rw [hnew]
      cases slot <;> rfl

end Json

namespace Fields

open Json

variable {α τ : Type}

/-- The fields have these names and shapes. -/
def Understood : {τ : Type} → Fields τ → List (String × Shape) → Prop
  | _, .nil, [] => True
  | _, .cons head tail, (name, s) :: rest =>
    head.name = name ∧ Understands head.read s ∧ tail.Understood rest
  | _, .nil, _ :: _ => False
  | _, .cons _ _, [] => False

theorem Understood.legible {fs : Fields τ} {shapes : List (String × Shape)}
    (h : fs.Understood shapes) : fs.Legible := by
  induction fs generalizing shapes with
  | nil => trivial
  | cons head tail ih =>
    cases shapes with
    | nil => cases h
    | cons => exact ⟨h.2.1.reads, ih h.2.2⟩

theorem Understood.names_eq {fs : Fields τ} {shapes : List (String × Shape)}
    (h : fs.Understood shapes) : fs.names = shapes.map (·.1) := by
  induction fs generalizing shapes with
  | nil =>
    cases shapes with
    | nil => rfl
    | cons => cases h
  | cons head tail ih =>
    cases shapes with
    | nil => cases h
    | cons => rw [names, List.map_cons, h.1, ih h.2.2]

theorem settle_perm {fs : Fields τ} {ms ms' : List (String × Tree)} (h : ms.Perm ms') (levels : Nat)
    (slots : fs.Slots) : fs.settle levels ms slots = fs.settle levels ms' slots := by
  induction fs with
  | nil => rfl
  | cons head tail ih =>
    obtain ⟨slot, slots⟩ := slots
    rw [settle_cons, settle_cons, Json.settle_perm h, ih slots]

/-- A member that is edited in what its field does not look at. -/
theorem settle_member {fs : Fields τ} {shapes : List (String × Shape)} (h : fs.Understood shapes)
    (hnames : fs.names.Nodup) {key : String} {s : Shape} {t t' : Tree}
    (hfield : (key, s) ∈ shapes) (hedit : Edit s t t') (ms : List (String × Tree)) (levels : Nat)
    (slots : fs.Slots) :
    fs.settle levels ((key, t) :: ms) slots = fs.settle levels ((key, t') :: ms) slots := by
  induction fs generalizing shapes with
  | nil => rfl
  | cons head tail ih =>
    cases shapes with
    | nil => cases h
    | cons shape shapes =>
      obtain ⟨hname, hhead, htail⟩ := h
      obtain ⟨hfresh, hnames⟩ := List.nodup_cons.1 hnames
      obtain ⟨slot, slots⟩ := slots
      rw [settle_cons, settle_cons]
      rcases List.mem_cons.1 hfield with rfl | hfield
      · have hother : ∀ tree, tail.settle levels ((key, tree) :: ms) slots =
            tail.settle levels ms slots := fun tree =>
          settle_cons_of_notMem (m := (key, tree)) (hname ▸ hfresh) levels slots ms
        have hsame : ∀ tree, valuesOf head.name ((key, tree) :: ms) =
            tree :: valuesOf head.name ms := fun tree => if_pos hname.symm
        rw [hother, hother]
        unfold Field.settle
        rw [hsame, hsame]
        cases slot with
        | some => rfl
        | none =>
          cases valuesOf head.name ms with
          | nil => exact congrArg (Option.bind · _) (hhead.respects levels hedit)
          | cons => rfl
      · have hne : head.name ≠ key := by
          rintro rfl
          rw [htail.names_eq] at hfresh
          exact hfresh (List.mem_map_of_mem hfield)
        rw [settle_cons_of_ne (m := (key, t)) hne, settle_cons_of_ne (m := (key, t')) hne,
          ih htail hnames hfield slots]

/-- An item that is edited in what its field does not look at. -/
theorem line_place {fs : Fields τ} {shapes : List (String × Shape)} (h : fs.Understood shapes)
    {name : String} {s : Shape} {t t' : Tree} (hedit : Edit s t t') (before after : List Tree)
    (hfield : shapes[before.length]? = some (name, s)) (levels : Nat) :
    fs.line levels (before ++ t :: after) = fs.line levels (before ++ t' :: after) := by
  induction fs generalizing shapes before with
  | nil => cases before <;> rfl
  | cons head tail ih =>
    cases shapes with
    | nil => cases h
    | cons shape shapes =>
      obtain ⟨-, hhead, htail⟩ := h
      cases before with
      | nil =>
        cases hfield
        simp only [List.nil_append, line, hhead.respects levels hedit]
      | cons item before =>
        simp only [List.cons_append, line, ih htail before hfield]

/-- Fields with different names, and with these names and shapes. -/
structure Fits (fs : Fields τ) (shapes : List (String × Shape)) : Prop where
  names : fs.names.Nodup
  understood : fs.Understood shapes

theorem Fits.respects {fs : Fields τ} {shapes : List (String × Shape)} (h : fs.Fits shapes) :
    Respects fs.meaning (.record shapes) := by
  intro levels t t' hedit
  cases levels with
  | zero => cases hedit <;> rfl
  | succ levels =>
    cases hedit with
    | order hperm => exact settle_perm hperm levels fs.fresh
    | unknown hkey ms =>
      exact settle_cons_of_notMem (h.understood.names_eq ▸ hkey) levels fs.fresh ms
    | member hfield hedit ms =>
      exact settle_member h.understood h.names hfield hedit ms levels fs.fresh
    | place before after hfield hedit =>
      exact line_place h.understood hedit before after hfield levels

end Fields

/-! ## The readers of the codecs -/

namespace Codec

open Json

variable {α τ : Type} {s : Shape}

theorem understands_ofText (expected : String) (parse : String → Except ReadError α)
    (print : α → String) : Understands (ofText expected parse print).read .leaf :=
  (reads_ofText expected parse print).understands (respects_leaf _)

theorem understands_ofInteger (expected : String) (ofInt? : Int → Option α) (toInt : α → Int) :
    Understands (ofInteger expected ofInt? toInt).read .leaf :=
  (reads_ofInteger expected ofInt? toInt).understands (respects_leaf _)

theorem understands_choice (options : List (String × α)) (name : α → String) :
    Understands (choice options name).read .leaf :=
  (reads_choice options name).understands (respects_leaf _)

theorem understands_json : Understands Codec.json.read .free :=
  reads_json.understands respects_json

theorem understands_nullable {read : Nat → List Char → Reading α} (h : Understands read s) :
    Understands (nullable read) s.nullable :=
  (reads_nullable h.reads).understands h.respects.nullable

theorem understands_list {c : Codec α} (h : Understands c.read s) :
    Understands (Codec.list c).read s.list :=
  (reads_list h.reads).understands h.respects.list

theorem understands_record {title : String} {fs : Fields τ} {unpack : α → τ} {pack : τ → α}
    {shapes : List (String × Shape)} (h : fs.Fits shapes) :
    Understands (Codec.record title fs unpack pack).read (.record shapes) :=
  (reads_record h.understood.legible h.names).understands (h.respects.map pack)

end Codec

end ResumableUpload
