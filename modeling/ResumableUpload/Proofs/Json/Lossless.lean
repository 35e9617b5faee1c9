import Mathlib.Data.List.Forall2
import ResumableUpload.Proofs.Json.Likeness

/-!
# What is written reads back

A codec keeps a value if what it writes of the value is a text of one that it reads as the value
(`Codec.Keeps`). Leaves are kept by what their text says; lists and records are kept if their items
and fields are. For a field that is more than its codec: what it does not write must be what it has
when it is absent, and no value of an optional field may be written as null.
-/

namespace ResumableUpload

open Json

variable {α τ : Type}

namespace Json

/-- The digits of a number. -/
def Numeral.ofNat (n : Nat) : Numeral :=
  ⟨Nat.toDigits 10 n, by simpa using MagnitudeText.parts (wholeText_toDigits n) .none .none⟩

theorem Numeral.value?_ofNat {n : Nat} (hfits : n ≤ Number.maxSignificand) :
    (ofNat n).value? false = some (.integer n) := by
  rw [value?, ofNat, Number.magnitude_toDigits false hfits]
  rfl

theorem Numeral.value?_ofNat_negative {n : Nat} (hpos : 0 < n) (hfits : n ≤ 9223372036854775808) :
    (ofNat n).value? true = some (.integer (-n)) := by
  have hmax : n ≤ Number.maxSignificand := Nat.le_trans hfits (by decide)
  have hrange : ¬(n = 0 ∨ 9223372036854775808 < n) := by omega
  rw [value?, ofNat, Number.magnitude_toDigits true hmax]
  simp only [Number.wholeTail, not_true_eq_false, if_false, if_neg hrange]
  rfl

end Json

/-- What is written of the value reads as the value, wherever `depth` brackets may be opened. -/
def Codec.Keeps (c : Codec α) (depth : Nat) (value : α) : Prop :=
  ∃ tree, tree ≠ .null ∧ Spells tree (c.write value) ∧
    ∀ levels, depth ≤ levels → understood c.read levels tree = some value

/-- What is written of the value reads as the value, and nothing is written only of the value for
absence. -/
def Field.Keeps (f : Field α) (depth : Nat) (value : α) : Prop :=
  match f.write value with
  | none => f.absent = some value
  | some text => ∃ tree, Spells tree text ∧
      ∀ levels, depth ≤ levels → understood f.read levels tree = some value

namespace Codec

variable {depth : Nat} {c : Codec α} {value : α}

theorem Keeps.mono {depth' : Nat} (h : c.Keeps depth value) (hdepth : depth ≤ depth') :
    c.Keeps depth' value := by
  obtain ⟨tree, hnull, hspelled, hread⟩ := h
  exact ⟨tree, hnull, hspelled, fun levels hlevels => hread levels (Nat.le_trans hdepth hlevels)⟩

/-- A value that is kept is read back from its text. -/
theorem Keeps.decode_encode (h : c.Keeps levels value) (hreads : Reads c.read (understood c.read)) :
    c.decode (c.encode value) = .ok value := by
  obtain ⟨tree, -, hspelled, hread⟩ := h
  have htext := hreads.toOption levels hspelled
  rw [hread levels (Nat.le_refl levels)] at htext
  rw [decode, encode, String.toList_ofList, eq_ok_of_toOption htext]
  rfl

/-- Every value of the type is read back from what is written of it. -/
def Lossless (c : Codec α) : Prop := ∀ value, c.decode (c.encode value) = .ok value

theorem lossless_of_keeps (hreads : Reads c.read (understood c.read)) (hdepth : depth ≤ levels)
    (h : ∀ value, c.Keeps depth value) : c.Lossless :=
  fun value => ((h value).mono hdepth).decode_encode hreads

/-! ## Leaves -/

theorem keeps_ofText (expected : String) {parse : String → Except ReadError α} {print : α → String}
    (hparse : parse (print value) = .ok value) (depth : Nat) :
    (ofText expected parse print).Keeps depth value := by
  refine ⟨.string (print value), nofun, spells_written (print value), fun levels _ => ?_⟩
  rw [← (reads_ofText expected parse print).eq_understood, Meaning.ofText, hparse]
  rfl

theorem keeps_text (value : String) (depth : Nat) : Codec.text.Keeps depth value :=
  keeps_ofText "a string" rfl depth

theorem keeps_choice {options : List (String × α)} {name : α → String}
    (hname : options.lookup (name value) = some value) (depth : Nat) :
    (choice options name).Keeps depth value := by
  refine ⟨.string (name value), nofun, spells_written (name value), fun levels _ => ?_⟩
  rw [← (reads_choice options name).eq_understood]
  exact hname

/-- An integer in the range of the readers is kept, if it is accepted. -/
theorem keeps_ofInteger (expected : String) {ofInt? : Int → Option α} {toInt : α → Int}
    (hlow : -9223372036854775808 ≤ toInt value) (hhigh : toInt value ≤ 18446744073709551615)
    (hback : ofInt? (toInt value) = some value) (depth : Nat) :
    (ofInteger expected ofInt? toInt).Keeps depth value := by
  have hread := (reads_ofInteger expected ofInt? toInt).eq_understood
  show ∃ tree, tree ≠ .null ∧ Spells tree (toString (toInt value)).toList ∧ _
  generalize hn : toInt value = n at *
  cases n with
  | ofNat n =>
    have hfits : n ≤ Number.maxSignificand := Int.ofNat_le.1 hhigh
    have htext : (toString (Int.ofNat n)).toList = (Numeral.ofNat n).text := Nat.toList_repr
    refine ⟨.number false (.ofNat n), by rintro ⟨⟩, ?_, fun levels _ => ?_⟩
    · exact htext ▸ .positive (.ofNat n)
    · rw [← hread, Meaning.ofInteger, Numeral.value?_ofNat hfits]
      exact hback
  | negSucc n =>
    have htext : (toString (Int.negSucc n)).toList = '-' :: (Numeral.ofNat (n + 1)).text := by
      show ("-" ++ Nat.repr (n + 1)).toList = _
      rw [String.toList_append, Nat.toList_repr]
      rfl
    refine ⟨.number true (.ofNat (n + 1)), by rintro ⟨⟩, ?_, fun levels _ => ?_⟩
    · exact htext ▸ .negative (.ofNat (n + 1))
    · rw [← hread, Meaning.ofInteger, Numeral.value?_ofNat_negative (Nat.succ_pos n) (by omega)]
      exact hback

/-! ## Lists -/

theorem joined_cons (text : List Char) (texts : List (List Char)) :
    list.joined (text :: texts) = text ++ texts.flatMap (',' :: ·) := by
  induction texts generalizing text with
  | nil => exact (List.append_nil text).symm
  | cons next texts ih =>
    rw [list.joined, ih, List.flatMap_cons]
    · rfl
    · exact nofun

/-- Texts with commas between them are the text of a list. -/
theorem listText_joined {β : Type} {R : β → List Char → Prop} {xs : List β}
    {texts : List (List Char)} (h : List.Forall₂ R xs texts) :
    ListText R true xs (list.joined texts ++ [']']) := by
  have hlater : ∀ {xs : List β} {texts : List (List Char)}, List.Forall₂ R xs texts →
      ListText R false xs (texts.flatMap (',' :: ·) ++ [']']) := by
    intro xs texts h
    induction h with
    | nil => exact listText_nil
    | @cons x text xs texts hx _ ih =>
      have hitem := ListText.item lead_comma hx ih
      simpa using hitem
  cases h with
  | nil => exact listText_nil
  | cons hx hxs =>
    have hitem := ListText.item lead_nil hx (hlater hxs)
    rw [joined_cons]
    simpa using hitem

/-- A list of values that are kept is kept. -/
theorem keeps_list (hreads : Reads c.read (understood c.read)) {values : List α}
    (h : ∀ value ∈ values, c.Keeps depth value) : (Codec.list c).Keeps (depth + 1) values := by
  obtain ⟨trees, htrees, hread⟩ : ∃ trees, List.Forall₂ Spells trees (values.map c.write) ∧
      ∀ levels, depth ≤ levels → trees.mapM (understood c.read levels) = some values := by
    induction values with
    | nil => exact ⟨[], .nil, fun _ _ => rfl⟩
    | cons value values ih =>
      obtain ⟨hvalue, hvalues⟩ := List.forall_mem_cons.1 h
      obtain ⟨tree, -, hspelled, hread⟩ := hvalue
      obtain ⟨trees, htrees, hreads⟩ := ih hvalues
      refine ⟨tree :: trees, .cons hspelled htrees, fun levels hlevels => ?_⟩
      rw [List.mapM_cons, hread levels hlevels, hreads levels hlevels]
      rfl
  refine ⟨.list trees, nofun, .list (listText_joined htrees), fun levels hlevels => ?_⟩
  obtain ⟨levels, rfl⟩ := Nat.exists_eq_add_one.2 (Nat.lt_of_lt_of_le (Nat.succ_pos depth) hlevels)
  rw [← (reads_list hreads).eq_understood]
  exact hread levels (Nat.le_of_succ_le_succ hlevels)

end Codec

/-! ## Records -/

/-- The member that is written of a field. -/
def MemberText (m : String × Tree) (written : List Char) : Prop :=
  ∃ text, written = writeString m.1 ++ ':' :: text ∧ Spells m.2 text

/-- Members with commas between them are the text of an object. -/
theorem objectText_joined {ms : List (String × Tree)} {texts : List (List Char)}
    (h : List.Forall₂ MemberText ms texts) :
    ObjectText Spells true ms (Codec.list.joined texts ++ ['\x7d']) := by
  have hlater : ∀ {ms : List (String × Tree)} {texts : List (List Char)},
      List.Forall₂ MemberText ms texts →
      ObjectText Spells false ms (texts.flatMap (',' :: ·) ++ ['\x7d']) := by
    intro ms texts h
    induction h with
    | nil => exact objectText_nil
    | @cons m _ ms texts hm _ ih =>
      obtain ⟨text, rfl, hspelled⟩ := hm
      have hmember := objectText_cons lead_comma m.1 hspelled ih
      simpa using hmember
  cases h with
  | nil => exact objectText_nil
  | @cons m _ ms _ hm hms =>
    obtain ⟨text, rfl, hspelled⟩ := hm
    have hmember := objectText_cons lead_nil m.1 hspelled (hlater hms)
    rw [Codec.joined_cons]
    simpa using hmember

namespace Fields

/-- Each field keeps its value. -/
def Keeps (depth : Nat) : {τ : Type} → Fields τ → τ → Prop
  | _, .nil, _ => True
  | _, .cons head tail, (value, values) => head.Keeps depth value ∧ tail.Keeps depth values

theorem valuesOf_eq_nil {β : Type} {key : String} {ms : List (String × β)}
    (h : ∀ m ∈ ms, m.1 ≠ key) : valuesOf key ms = [] := by
  induction ms with
  | nil => rfl
  | cons m ms ih =>
    obtain ⟨hm, hms⟩ := List.forall_mem_cons.1 h
    rw [valuesOf_cons_of_ne (Ne.symm hm), ih hms]

theorem gather_cons {β : Type} (head : Field α) (tail : Fields β) (levels : Nat)
    (ms : List (String × Tree)) : (Fields.cons head tail).gather levels ms =
      (head.settle levels none ms).bind fun value => (tail.gather levels ms).map (value, ·) :=
  rfl

/-- What is written of the fields are members that make them have their values. -/
theorem Keeps.exists_members {fs : Fields τ} {depth : Nat} {values : τ} (h : fs.Keeps depth values)
    (hnames : fs.names.Nodup) :
    ∃ ms, List.Forall₂ MemberText ms (fs.written values) ∧ (∀ m ∈ ms, m.1 ∈ fs.names) ∧
      ∀ levels, depth ≤ levels → fs.gather levels ms = some values := by
  induction fs with
  | nil => exact ⟨[], .nil, nofun, fun _ _ => rfl⟩
  | cons head tail ih =>
    obtain ⟨value, values⟩ := values
    obtain ⟨hhead, htail⟩ := h
    obtain ⟨hfresh, hnames⟩ := List.nodup_cons.1 hnames
    obtain ⟨ms, htexts, hms, hgather⟩ := ih htail hnames
    have hmissing : valuesOf head.name ms = [] :=
      valuesOf_eq_nil fun m hm hname => hfresh (hname ▸ hms m hm)
    rw [Field.Keeps] at hhead
    rw [written]
    cases hwrite : head.write value with
    | none =>
      rw [hwrite] at hhead
      refine ⟨ms, htexts, fun m hm => .tail _ (hms m hm), fun levels hlevels => ?_⟩
      rw [gather_cons, hgather levels hlevels, Field.settle_absent hmissing, hhead]
      rfl
    | some text =>
      rw [hwrite] at hhead
      obtain ⟨tree, hspelled, hread⟩ := hhead
      refine ⟨(head.name, tree) :: ms, .cons ⟨text, rfl, hspelled⟩ htexts, ?_,
        fun levels hlevels => ?_⟩
      · exact List.forall_mem_cons.2 ⟨.head _, fun m hm => .tail _ (hms m hm)⟩
      · have hgathered := hgather levels hlevels
        have hmine : valuesOf head.name ((head.name, tree) :: ms) = [tree] := by
          rw [← hmissing]
          exact valuesOf_cons_self (head.name, tree) ms
        rw [gather] at hgathered
        rw [gather_cons, gather, settle_cons_of_notMem hfresh, hgathered,
          Field.settle_member hmine, hread levels hlevels]
        rfl

end Fields

/-- A record whose fields keep their values is kept. -/
theorem Codec.keeps_record {title : String} {fs : Fields τ} {unpack : α → τ} {pack : τ → α}
    {shapes : List (String × Shape)} {depth : Nat} {value : α} (hfits : fs.Fits shapes)
    (h : fs.Keeps depth (unpack value)) (hpack : pack (unpack value) = value) :
    (Codec.record title fs unpack pack).Keeps (depth + 1) value := by
  obtain ⟨ms, htexts, -, hgather⟩ := h.exists_members hfits.names
  refine ⟨.object ms, nofun, .object (objectText_joined htexts), fun levels hlevels => ?_⟩
  obtain ⟨levels, rfl⟩ := Nat.exists_eq_add_one.2 (Nat.lt_of_lt_of_le (Nat.succ_pos depth) hlevels)
  rw [← (reads_record hfits.understood.legible hfits.names).eq_understood]
  show (fs.gather levels ms).map pack = some value
  rw [hgather levels (Nat.le_of_succ_le_succ hlevels)]
  exact congrArg some hpack

/-! ## Fields -/

namespace Field

variable {c : Codec α} {depth : Nat} {value : α}

theorem keeps_required (name : String) (h : c.Keeps depth value) :
    (required name c).Keeps depth value := by
  obtain ⟨tree, -, hspelled, hread⟩ := h
  exact ⟨tree, hspelled, hread⟩

theorem keeps_defaulted (name : String) (absent : α) (h : c.Keeps depth value) :
    (defaulted name c absent).Keeps depth value :=
  keeps_required name h

/-- An empty text is not written, and is the value for absence. -/
theorem keeps_textOrEmpty (name value : String) (depth : Nat) :
    (textOrEmpty name).Keeps depth value := by
  cases hempty : value.isEmpty with
  | true =>
    rw [String.isEmpty_iff.1 hempty]
    rfl
  | false =>
    have hwrite : (textOrEmpty name).write value = some (Codec.text.write value) := by
      rw [textOrEmpty]
      simp only [hempty, Bool.false_eq_true, if_false]
    obtain ⟨tree, -, hspelled, hread⟩ := Codec.keeps_text value depth
    rw [Keeps, hwrite]
    exact ⟨tree, hspelled, hread⟩

/-- Null is not written, and no value of the codec is written as null. -/
theorem keeps_optional (name : String) (hreads : Reads c.read (understood c.read))
    {value : Option α} (h : ∀ v ∈ value, c.Keeps depth v) :
    (optional name c).Keeps depth value := by
  cases value with
  | none => rfl
  | some value =>
    obtain ⟨tree, hnull, hspelled, hread⟩ := h value rfl
    refine ⟨tree, hspelled, fun levels hlevels => ?_⟩
    show understood (Codec.nullable c.read) levels tree = _
    rw [← (Codec.reads_nullable hreads).eq_understood, Meaning.nullable_of_ne_null _ _ hnull,
      hread levels hlevels]
    rfl

end Field

end ResumableUpload
