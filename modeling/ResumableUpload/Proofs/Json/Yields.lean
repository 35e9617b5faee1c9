import ResumableUpload.Proofs.Json.Records

/-!
# What readers yield

What can be said of the values that a reader makes of texts at all, whatever texts these are, and
whether or not they are JSON (`Yields`). The items of a list have what each of them has, and what
every member of an object keeps is kept in the end. So each field of a record that has been read has
a value that its own reader yields, or the one that it has when it is absent (`yields_record`).
-/

namespace ResumableUpload

namespace Json

/-! ## Readings -/

section

variable {α β : Type} {P : α → Prop} {Q : β → Prop} {r : Reading α}

/-- Whatever the reader makes of the text has the property. -/
def Yields (P : α → Prop) (r : Reading α) : Prop := ∀ x rest, r = .ok (x, rest) → P x

theorem yields_true (r : Reading α) : Yields (fun _ => True) r := fun _ _ _ => trivial

theorem yields_error (e : ReadError) : Yields P (.error e) := nofun

theorem yields_ok {x : α} (h : P x) (rest : List Char) : Yields P (.ok (x, rest)) := by
  rintro _ _ ⟨⟩
  exact h

theorem Yields.map {f : α → β} (h : Yields P r) (hf : ∀ x, P x → Q (f x)) :
    Yields Q (r.map fun (x, rest) => (f x, rest)) := by
  cases r with
  | error e => exact yields_error e
  | ok out => exact yields_ok (hf _ (h _ _ rfl)) _

theorem yields_map_of_forall {f : α → β} (r : Reading α) (hf : ∀ x, Q (f x)) :
    Yields Q (r.map fun (x, rest) => (f x, rest)) :=
  (yields_true r).map fun x _ => hf x

/-- What only moves the text on yields nothing but the value it is given. -/
theorem yields_map_const {t : Except ReadError (List Char)} {x : α} (h : P x) :
    Yields P (t.map (x, ·)) := by
  cases t with
  | error e => exact yields_error e
  | ok rest => exact yields_ok h rest

/-- The items of a list have what each item has. -/
theorem yields_items {item : List Char → Reading α} (h : ∀ text, Yields P (item text)) (fuel : Nat)
    (first : Bool) (text : List Char) : Yields (∀ x ∈ ·, P x) (items item fuel first text) := by
  induction fuel generalizing first text with
  | zero => exact yields_error .truncated
  | succ fuel ih =>
    unfold items
    split
    next => exact yields_error _
    next => exact yields_map_const nofun
    next rest _ =>
      cases hitem : item rest with
      | error e => exact yields_error e
      | ok out =>
        obtain ⟨x, rest⟩ := out
        have hx := h _ x rest hitem
        have hxs := (ih false rest).map (Q := (∀ y ∈ ·, P y)) (f := (x :: ·)) fun xs hxs =>
          List.forall_mem_cons.2 ⟨hx, hxs⟩
        simp only
        cases hitems : items item fuel false rest <;> rw [hitems] at hxs <;> exact hxs

/-- What each member keeps is kept by all of them. -/
theorem yields_members {member : α → String → List Char → Reading α}
    (h : ∀ acc key text, P acc → Yields P (member acc key text)) (fuel : Nat) (first : Bool)
    {acc : α} (hacc : P acc) (text : List Char) :
    Yields P (members member fuel first acc text) := by
  induction fuel generalizing first acc text with
  | zero => exact yields_error .truncated
  | succ fuel ih =>
    unfold members
    split
    next => exact yields_error _
    next => exact yields_map_const hacc
    next key rest _ =>
      cases hmember : member acc key rest with
      | error e => exact yields_error e
      | ok out =>
        obtain ⟨acc', rest'⟩ := out
        exact ih false (h _ _ _ hacc _ _ hmember) rest'

end

end Json

open Json

variable {α τ : Type} {levels : Nat}

/-! ## Records -/

/-- The value is the one for absence, or one that the field's reader yields. -/
def Field.Yields (f : Field α) (levels : Nat) (value : α) : Prop :=
  f.absent = some value ∨ ∃ text rest, f.read levels text = .ok (value, rest)

namespace Fields

/-- Each field has a value that it yields. -/
def Yields (levels : Nat) : {τ : Type} → Fields τ → τ → Prop
  | _, .nil, _ => True
  | _, .cons head tail, (value, values) => head.Yields levels value ∧ tail.Yields levels values

/-- Each slot is empty, or holds a value that its field yields. -/
def Filled (levels : Nat) : {τ : Type} → (fs : Fields τ) → fs.Slots → Prop
  | _, .nil => fun _ => True
  | _, @cons α _ head tail => fun (slots : Option α × tail.Slots) =>
    (∀ value ∈ slots.1, head.Yields levels value) ∧ tail.Filled levels slots.2

theorem filled_fresh (fs : Fields τ) : fs.Filled levels fs.fresh := by
  induction fs with
  | nil => trivial
  | cons head tail ih => exact ⟨nofun, ih⟩

/-- A member that is wanted fills its slot with what its field yields. -/
theorem filled_of_wanted {fs : Fields τ} {slots : fs.Slots} (h : fs.Filled levels slots)
    {key : String} {read : Nat → List Char → Reading fs.Slots}
    (hmember : fs.member key slots = .wanted read) (text : List Char) :
    Json.Yields (fs.Filled levels) (read levels text) := by
  induction fs with
  | nil => cases hmember
  | cons head tail ih =>
    obtain ⟨slot, slots⟩ := slots
    obtain ⟨hslot, hslots⟩ := h
    by_cases hname : head.name = key
    · cases slot with
      | some value =>
        rw [member_cons_repeated hname] at hmember
        cases hmember
      | none =>
        rw [member_cons_wanted hname] at hmember
        cases hmember
        have hread : Json.Yields (head.Yields levels) (head.read levels text) :=
          fun value rest hvalue => .inr ⟨text, rest, hvalue⟩
        exact hread.map (f := fun value => (some value, slots)) fun value hvalue =>
          ⟨by rintro _ ⟨⟩; exact hvalue, hslots⟩
    · rw [member_cons_of_ne hname] at hmember
      cases hrest : tail.member key slots with
      | wanted reader =>
        rw [hrest] at hmember
        cases hmember
        exact (ih hslots hrest).map (f := (slot, ·)) fun _ hfilled => ⟨hslot, hfilled⟩
      | unknown => rw [hrest] at hmember; cases hmember
      | repeated => rw [hrest] at hmember; cases hmember

/-- One member more, and the slots are still filled with what the fields yield. -/
theorem filled_readMember {fs : Fields τ} {slots : fs.Slots} (h : fs.Filled levels slots)
    (key : String) (text : List Char) :
    Json.Yields (fs.Filled levels) (fs.readMember levels slots key text) := by
  unfold readMember
  split
  next => exact yields_error _
  next =>
    split
    · exact yields_error _
    · exact yields_map_const h
  next read hmember =>
    split
    · exact yields_error _
    · exact filled_of_wanted h hmember _

/-- Closing an object takes what the slots hold, or the values for absence. -/
theorem yields_close {fs : Fields τ} {slots : fs.Slots} (h : fs.Filled levels slots) {values : τ}
    (hclose : fs.close slots = .ok values) : fs.Yields levels values := by
  induction fs with
  | nil => trivial
  | cons head tail ih =>
    obtain ⟨slot, slots⟩ := slots
    obtain ⟨hslot, hslots⟩ := h
    rw [close_cons] at hclose
    split at hclose
    next => cases hclose
    next value hvalue =>
      cases htail : tail.close slots with
      | error e => rw [htail] at hclose; cases hclose
      | ok rest =>
        rw [htail] at hclose
        cases hclose
        refine ⟨?_, ih hslots htail⟩
        cases slot with
        | some _ =>
          cases hvalue
          exact hslot _ rfl
        | none => exact .inl hvalue

theorem yields_readObject (fs : Fields τ) (text : List Char) :
    Json.Yields (fs.Yields levels) (fs.readObject levels text) := by
  have hfresh : fs.Filled levels fs.fresh := filled_fresh fs
  have hmembers := yields_members (fun _ key text h => filled_readMember h key text)
    (text.length + 1) true hfresh text
  unfold readObject
  split
  next => exact yields_error _
  next slots rest hslots =>
    have hfilled := hmembers slots rest hslots
    cases hclose : fs.close slots with
    | error e => exact yields_error e
    | ok values => exact yields_ok (yields_close hfilled hclose) rest

theorem yields_readList (whole : String) (fs : Fields τ) (index : Nat) (first : Bool)
    (text : List Char) :
    Json.Yields (fs.Yields levels) (fs.readList whole levels index first text) := by
  induction fs generalizing index first text with
  | nil => exact yields_map_const trivial
  | cons head tail ih =>
    unfold readList
    split
    next => exact yields_error _
    next =>
      split
      next => exact yields_error _
      next value hvalue =>
        exact (ih _ _ _).map (f := (value, ·)) fun _ hvalues => ⟨.inl hvalue, hvalues⟩
    next item _ =>
      split
      next => exact yields_error _
      next value rest hvalue =>
        exact (ih _ _ _).map (f := (value, ·)) fun _ hvalues => ⟨.inr ⟨item, rest, hvalue⟩, hvalues⟩

end Fields

/-- The fields of a record that has been read have values that they yield, one level down. -/
theorem Codec.yields_record (title : String) (fs : Fields τ) (unpack : α → τ) (pack : τ → α)
    (levels : Nat) (text : List Char) :
    Json.Yields (fun x => ∃ values, x = pack values ∧ fs.Yields (levels - 1) values)
      ((Codec.record title fs unpack pack).read levels text) := by
  unfold Codec.record
  simp only
  split
  next => exact yields_error _
  next =>
    cases levels with
    | zero => exact yields_error _
    | succ levels => exact (fs.yields_readObject _).map fun values h => ⟨values, rfl, h⟩
  next =>
    cases levels with
    | zero => exact yields_error _
    | succ levels => exact (fs.yields_readList _ _ _ _).map fun values h => ⟨values, rfl, h⟩
  next => exact yields_error _

end ResumableUpload
