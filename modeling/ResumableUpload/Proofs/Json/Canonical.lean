import Mathlib.Data.List.DropRight
import ResumableUpload.Proofs.Json.FreeForm
import ResumableUpload.Proofs.Json.Yields

/-!
# Free-form values that have been read

A value that has been read is canonical (`yields_read`): its integers are in the range of 64 bits,
the members of its objects are in the strict order of their keys, and it nests no deeper than it was
read. That is proved reader by reader, whatever the text.

Of a canonical value without doubles, what is written reads as the same value (`Canonical.keeps`):
members that are in order stay where they are when they are put in their places again.
-/

namespace ResumableUpload.Json

/-! ## Numbers -/

namespace Number

/-- An integer is in the range of 64 bits. -/
def InRange : Number → Prop
  | .integer n => -9223372036854775808 ≤ n ∧ n ≤ 18446744073709551615
  | .double _ => True

variable {negative : Bool} {significand : Nat} {start : Int}

theorem yields_scale (exponent : Int) (rest : List Char) :
    Yields InRange ((scale negative significand exponent).map fun n => (n, rest)) := by
  unfold scale
  simp only
  split
  · exact yields_ok trivial rest
  · split
    · split
      · exact yields_error _
      · exact yields_ok trivial rest
    · split
      · exact yields_ok trivial rest
      · exact yields_error _

theorem yields_exponentDigits (down : Bool) (e : Nat) (text : List Char) :
    Yields InRange (exponentDigits negative significand start down e text) := by
  induction text generalizing e with
  | nil => exact yields_scale _ _
  | cons c rest ih =>
    rw [exponentDigits]
    simp only
    split
    · split
      · split
        · exact yields_error _
        · exact yields_ok trivial _
      · exact ih _
    · exact yields_scale _ _

theorem yields_exponent (text : List Char) :
    Yields InRange (exponent negative significand start text) := by
  unfold exponent
  simp only
  split
  · exact yields_error _
  · split
    · exact yields_exponentDigits _ _ _
    · exact yields_error _

theorem yields_doubleTail (text : List Char) :
    Yields InRange (doubleTail negative significand start text) := by
  unfold doubleTail
  split
  · split
    · exact yields_exponent _
    · exact yields_scale _ _
  · exact yields_scale _ _

theorem yields_fractionDigits (text : List Char) :
    Yields InRange (fractionDigits negative significand start text) := by
  induction text generalizing significand start with
  | nil => exact yields_doubleTail _
  | cons c rest ih =>
    rw [fractionDigits]
    simp only
    split
    · split
      · exact yields_doubleTail _
      · exact ih
    · exact yields_doubleTail _

theorem yields_fraction (text : List Char) :
    Yields InRange (fraction negative significand start text) := by
  unfold fraction
  split
  · exact yields_error _
  · split
    · exact yields_fractionDigits _
    · exact yields_error _

theorem yields_surplusDigits (count : Nat) (text : List Char) :
    Yields InRange (surplusDigits negative significand count text) := by
  induction text generalizing count with
  | nil => exact yields_doubleTail _
  | cons c rest ih =>
    rw [surplusDigits]
    split
    · exact ih _
    · split
      · exact yields_fraction _
      · exact yields_doubleTail _

/-- Only here does an integer come about, and its significand fits. -/
theorem yields_wholeTail (hfits : significand ≤ maxSignificand) (text : List Char) :
    Yields InRange (wholeTail negative significand text) := by
  have hmax : maxSignificand = 18446744073709551615 := rfl
  unfold wholeTail
  split
  · exact yields_fraction _
  · exact yields_exponent _
  · exact yields_exponent _
  · split
    next =>
      have hrange : InRange (.integer significand) := ⟨by omega, by omega⟩
      exact yields_ok hrange _
    next =>
      split
      next => exact yields_ok trivial _
      next =>
        have hrange : InRange (.integer (-significand)) := ⟨by omega, by omega⟩
        exact yields_ok hrange _

theorem yields_wholeDigits (hfits : significand ≤ maxSignificand) (text : List Char) :
    Yields InRange (wholeDigits negative significand text) := by
  induction text generalizing significand with
  | nil => exact yields_wholeTail hfits []
  | cons c rest ih =>
    rw [wholeDigits]
    simp only
    split
    · split
      · exact yields_surplusDigits _ _
      next hnext => exact ih (Nat.not_lt.1 hnext)
    · exact yields_wholeTail hfits _

theorem digitValue_le {c : Char} (h : c.isDigit) : digitValue c ≤ 9 := by
  have hle : c.val ≤ 57 := (Bool.and_eq_true_iff.1 h).2 |> of_decide_eq_true
  have hnat : c.val.toNat ≤ 57 := hle
  show c.val.toNat - 48 ≤ 9
  omega

theorem yields_magnitude (negative : Bool) (text : List Char) :
    Yields InRange (magnitude negative text) := by
  unfold magnitude
  split
  · exact yields_error _
  · split
    · split
      · exact yields_error _
      · exact yields_wholeTail (Nat.zero_le _) _
    · exact yields_wholeTail (Nat.zero_le _) _
  · split
    next hdigit =>
      exact yields_wholeDigits (Nat.le_trans (digitValue_le hdigit) (by decide)) _
    next => exact yields_error _

end Number

/-! ## Members in their places -/

section

variable {key : String} {value : Json} {members : List (String × Json)}

/-- The members are in the order of their keys, each key once. -/
def Sorted (members : List (String × Json)) : Prop := members.Pairwise fun m n => m.1 < n.1

theorem mem_insert {m : String × Json} (h : m ∈ insert key value members) :
    m = (key, value) ∨ m ∈ members := by
  induction members with
  | nil => exact .inl (List.mem_singleton.1 h)
  | cons head rest ih =>
    rw [insert] at h
    split at h
    · exact List.mem_cons.1 h
    · split at h
      · exact (List.mem_cons.1 h).imp_right (List.mem_cons_of_mem head)
      · rcases List.mem_cons.1 h with rfl | h
        · exact .inr List.mem_cons_self
        · exact (ih h).imp_right (List.mem_cons_of_mem head)

/-- A member is put where its key belongs. -/
theorem Sorted.insert (h : Sorted members) : Sorted (insert key value members) := by
  induction members with
  | nil => exact List.pairwise_singleton _ _
  | cons head rest ih =>
    obtain ⟨hhead, hrest⟩ := List.pairwise_cons.1 h
    rw [Json.insert]
    split
    next hlt =>
      refine List.pairwise_cons.2 ⟨fun m hm => ?_, h⟩
      rcases List.mem_cons.1 hm with rfl | hm
      · exact hlt
      · exact String.lt_trans hlt (hhead m hm)
    next hge =>
      split
      next heq =>
        subst heq
        exact List.pairwise_cons.2 ⟨hhead, hrest⟩
      next hne =>
        have hgt : head.1 < key := Std.lt_of_le_of_ne (String.not_lt.1 hge) (Ne.symm hne)
        refine List.pairwise_cons.2 ⟨fun m hm => ?_, ih hrest⟩
        rcases mem_insert hm with rfl | hm
        · exact hgt
        · exact hhead m hm

/-- A member whose key is the largest goes to the end. -/
theorem insert_eq_append (h : ∀ m ∈ members, m.1 < key) :
    insert key value members = members ++ [(key, value)] := by
  induction members with
  | nil => rfl
  | cons head rest ih =>
    obtain ⟨hhead, hrest⟩ := List.forall_mem_cons.1 h
    have hge : ¬key < head.1 := fun hlt => String.lt_irrefl _ (String.lt_trans hlt hhead)
    have hne : key ≠ head.1 := fun heq => String.lt_irrefl _ (heq ▸ hhead)
    rw [insert, if_neg hge, if_neg hne, ih hrest, List.cons_append]

end

/-! ## Canonical values -/

/-- A value as reading makes them, with at most `levels` nested brackets. -/
inductive Canonical : (levels : Nat) → Json → Prop
  | null {levels : Nat} : Canonical levels .null
  | boolean {levels : Nat} (value : Bool) : Canonical levels (.boolean value)
  | number {levels : Nat} {n : Number} (hrange : n.InRange) : Canonical levels (.number n)
  | string {levels : Nat} (value : String) : Canonical levels (.string value)
  | list {levels : Nat} {items : List Json} (hitems : ∀ item ∈ items, Canonical levels item) :
      Canonical (levels + 1) (.list items)
  | object {levels : Nat} {members : List (String × Json)} (hsorted : Sorted members)
      (hmembers : ∀ m ∈ members, Canonical levels m.2) : Canonical (levels + 1) (.object members)

/-- A member put in its place keeps the members canonical. -/
theorem yields_member {levels : Nat} {value : List Char → Reading Json}
    (h : ∀ text, Yields (Canonical levels) (value text)) {acc : List (String × Json)}
    (hacc : Sorted acc ∧ ∀ m ∈ acc, Canonical levels m.2) (key : String) (text : List Char) :
    Yields (fun acc => Sorted acc ∧ ∀ m ∈ acc, Canonical levels m.2)
      (member value acc key text) := by
  have hput : ∀ v, Canonical levels v → Sorted (insert key v acc) ∧
      ∀ m ∈ insert key v acc, Canonical levels m.2 := by
    refine fun v hv => ⟨hacc.1.insert, fun m hm => ?_⟩
    rcases mem_insert hm with rfl | hm
    · exact hv
    · exact hacc.2 m hm
  unfold member
  split
  · exact yields_error _
  · exact (h _).map (f := fun v => insert key v acc) hput

/-- Every value that is read is canonical. -/
theorem yields_read (levels : Nat) (text : List Char) :
    Yields (Canonical levels) (read levels text) := by
  induction levels using Nat.strongRecOn generalizing text with
  | ind levels ih =>
    unfold read
    split
    · exact yields_error _
    · exact yields_map_const .null
    · exact yields_map_const (.boolean true)
    · exact yields_map_const (.boolean false)
    · exact (Number.yields_magnitude _ _).map fun _ => .number
    · exact yields_map_of_forall _ .string
    · split
      · exact yields_error _
      · exact (yields_items (ih _ (Nat.lt_succ_self _)) _ _ _).map fun _ => .list
    · split
      · exact yields_error _
      · exact (yields_members (fun acc key text hacc =>
          yields_member (ih _ (Nat.lt_succ_self _)) hacc key text) _ _
            ⟨.nil, List.forall_mem_nil _⟩ _).map
            fun _ hmembers => .object hmembers.1 hmembers.2
    · split
      · exact (Number.yields_magnitude _ _).map fun _ => .number
      · exact yields_error _

/-- Only the word for it is read as null. -/
theorem yields_ne_null {text : List Char} (h : ∀ rest, skipBlank text ≠ 'n' :: rest)
    (levels : Nat) : Yields (· ≠ .null) (read levels text) := by
  unfold read
  split
  next => exact yields_error _
  next heq => exact absurd heq (h _)
  next => exact yields_map_const (by simp)
  next => exact yields_map_const (by simp)
  next => exact yields_map_of_forall _ (by simp)
  next => exact yields_map_of_forall _ (by simp)
  next =>
    split
    · exact yields_error _
    · exact yields_map_of_forall _ (by simp)
  next =>
    split
    · exact yields_error _
    · exact yields_map_of_forall _ (by simp)
  next =>
    split
    · exact yields_map_of_forall _ (by simp)
    · exact yields_error _

/-- A value that may be absent is canonical if it is there, and not null. -/
theorem yields_nullable (levels : Nat) (text : List Char) :
    Yields (∀ value ∈ ·, Canonical levels value ∧ value ≠ .null)
      (Codec.nullable Codec.json.read levels text) := by
  unfold Codec.nullable
  split
  next => exact yields_map_const nofun
  next hother =>
    have hne : ∀ rest, skipBlank (skipBlank text) ≠ 'n' :: rest := by
      rw [skipBlank, skipBlank, List.dropWhile_idempotent]
      exact hother
    have hread : Yields (fun value => Canonical levels value ∧ value ≠ .null)
        (read levels (skipBlank text)) := fun value rest h =>
      ⟨yields_read levels _ value rest h, yields_ne_null hne levels value rest h⟩
    exact hread.map fun value hvalue => by
      rintro _ ⟨⟩
      exact hvalue

/-! ## Reading canonical values back -/

mutual

/-- The numbers within a value. -/
def numbers : Json → List Number
  | .number n => [n]
  | .list items => itemNumbers items
  | .object members => memberNumbers members
  | _ => []

def itemNumbers : List Json → List Number
  | [] => []
  | item :: rest => item.numbers ++ itemNumbers rest

def memberNumbers : List (String × Json) → List Number
  | [] => []
  | (_, value) :: rest => value.numbers ++ memberNumbers rest

end

def Number.isInteger : Number → Bool
  | .integer _ => true
  | .double _ => false

/-- No number of the value is a double. -/
def Exact (value : Json) : Prop := ∀ n ∈ value.numbers, n.isInteger

instance (value : Json) : Decidable value.Exact := inferInstanceAs (Decidable (∀ _ ∈ _, _))

theorem exact_list_iff {items : List Json} :
    (Json.list items).Exact ↔ ∀ item ∈ items, item.Exact := by
  unfold Exact
  rw [numbers]
  induction items with
  | nil => simp [itemNumbers]
  | cons item rest ih =>
    rw [itemNumbers, List.forall_mem_append, List.forall_mem_cons, ih]

theorem exact_object_iff {members : List (String × Json)} :
    (Json.object members).Exact ↔ ∀ m ∈ members, m.2.Exact := by
  unfold Exact
  rw [numbers]
  induction members with
  | nil => simp [memberNumbers]
  | cons m rest ih =>
    rw [memberNumbers, List.forall_mem_append, List.forall_mem_cons, ih]

theorem meaning_integer {i : Int} (hrange : (Number.integer i).InRange) (levels : Nat) :
    Meaning.json levels (Number.integer i).tree = some (.number (.integer i)) := by
  obtain ⟨hlow, hhigh⟩ := hrange
  cases i with
  | ofNat n =>
    have hfits : n ≤ Number.maxSignificand := Int.ofNat_le.1 hhigh
    rw [Number.tree, Meaning.json, Numeral.value?_ofNat hfits]
    rfl
  | negSucc n =>
    rw [Number.tree, Meaning.json, Numeral.value?_ofNat_negative (Nat.succ_pos n) (by omega)]
    rfl

/-- Items that read back one by one read back as a list. -/
theorem mapM_meaning_tree {levels : Nat} {items : List Json}
    (h : ∀ item ∈ items, Meaning.json levels item.tree = some item) :
    (items.map tree).mapM (Meaning.json levels) = some items := by
  induction items with
  | nil => rfl
  | cons item rest ih =>
    obtain ⟨hitem, hrest⟩ := List.forall_mem_cons.1 h
    rw [List.map_cons, List.mapM_cons, hitem, ih hrest]
    rfl

/-- Members that are in order are put in their places one behind the other. -/
theorem foldlM_jsonMember_tree {levels : Nat} {acc members : List (String × Json)}
    (hsorted : Sorted (acc ++ members))
    (h : ∀ m ∈ members, Meaning.json levels m.2.tree = some m.2) :
    (members.map fun m => (m.1, m.2.tree)).foldlM (Meaning.jsonMember levels) acc =
      some (acc ++ members) := by
  induction members generalizing acc with
  | nil => exact congrArg some (List.append_nil acc).symm
  | cons m rest ih =>
    obtain ⟨hm, hrest⟩ := List.forall_mem_cons.1 h
    have hlast : ∀ a ∈ acc, a.1 < m.1 := fun a ha =>
      (List.pairwise_append.1 hsorted).2.2 a ha m List.mem_cons_self
    have hput : Meaning.jsonMember levels acc (m.1, m.2.tree) = some (acc ++ [m]) := by
      rw [Meaning.jsonMember, hm, Option.map_some, insert_eq_append hlast]
    rw [List.append_cons acc m rest] at hsorted ⊢
    rw [List.map_cons, List.foldlM_cons, hput]
    exact ih hsorted hrest

/-- What is written of a canonical value without doubles has that value as its meaning. -/
theorem Canonical.meaning_tree {levels : Nat} {value : Json} (h : Canonical levels value)
    (hexact : value.Exact) : ∀ {levels' : Nat}, levels ≤ levels' →
      Meaning.json levels' value.tree = some value := by
  induction h with
  | null => intros; rfl
  | boolean => intros; rfl
  | string => intros; rfl
  | @number _ n hrange =>
    intro levels' _
    cases n with
    | integer i => exact meaning_integer hrange levels'
    | double x => cases hexact (.double x) List.mem_cons_self
  | @list levels items _ ih =>
    intro levels' hlevels
    obtain ⟨levels', rfl⟩ :=
      Nat.exists_eq_add_one.2 (Nat.lt_of_lt_of_le (Nat.succ_pos levels) hlevels)
    have hitems : ∀ item ∈ items, Meaning.json levels' item.tree = some item := fun item hitem =>
      ih item hitem (exact_list_iff.1 hexact item hitem) (Nat.le_of_succ_le_succ hlevels)
    rw [tree, itemTrees_eq_map, Meaning.json, Meaning.jsonItems_eq_mapM, mapM_meaning_tree hitems]
    rfl
  | @object levels members hsorted _ ih =>
    intro levels' hlevels
    obtain ⟨levels', rfl⟩ :=
      Nat.exists_eq_add_one.2 (Nat.lt_of_lt_of_le (Nat.succ_pos levels) hlevels)
    have hmembers : ∀ m ∈ members, Meaning.json levels' m.2.tree = some m.2 := fun m hm =>
      ih m hm (exact_object_iff.1 hexact m hm) (Nat.le_of_succ_le_succ hlevels)
    have hplaced := foldlM_jsonMember_tree ((List.nil_append members).symm ▸ hsorted) hmembers
    rw [tree, memberTrees_eq_map, Meaning.json, Meaning.jsonMembers_eq_foldlM, hplaced]
    rfl

/-- A canonical value that is neither null nor holds a double is kept. -/
theorem Canonical.keeps {depth : Nat} {value : Json} (h : Canonical depth value)
    (hexact : value.Exact) (hnull : value ≠ .null) : Codec.json.Keeps depth value := by
  refine ⟨value.tree, fun htree => hnull (eq_null_of_tree htree), value.spells_tree,
    fun levels hlevels => ?_⟩
  rw [← Codec.reads_json.eq_understood]
  exact h.meaning_tree hexact hlevels

end ResumableUpload.Json
