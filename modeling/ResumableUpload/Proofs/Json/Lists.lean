import ResumableUpload.Proofs.Json.Objects

/-!
# Which texts a record accepts

A record can also stand there as a list of its fields. Whether it accepts the text of a list, and as
what, the texts of the items tell (`Fields.Takes`): each field has the value that the item in its
place says, those behind the last item have their values for absence, and no item may be left over.

With the objects, these are all the values that a record can be read from. So a text of a value
tells the fields of a record (`Fields.Told`) exactly if it is read as it
(`Codec.decode_record_iff_told`). Of an object, a text that may be left out when it is empty is the
one string that stands under its name (`Json.Says`).
-/

namespace ResumableUpload

open Json

variable {α τ : Type}

/-! ## Lists by their items' texts -/

namespace Json

/-- The text of a list with blanks around it, and the texts of its items. -/
inductive IsList (items : List (List Char)) : String → Prop
  | blanks {blanks text blanks' : List Char} (hb : Blank blanks)
      (h : ListText (fun item text => item = text ∧ ∃ tree, Spells tree text) true items text)
      (hb' : Blank blanks') : IsList items (String.ofList (blanks ++ ('[' :: text ++ blanks')))

theorem ListText.exists_trees {first : Bool} {items : List (List Char)} {text : List Char}
    (h : ListText (fun item text => item = text ∧ ∃ tree, Spells tree text) first items text) :
    ∃ trees, List.Forall₂ Spells trees items ∧ ListText Spells first trees text := by
  induction h with
  | close hb => exact ⟨[], .nil, .close hb⟩
  | item hlead h _ ih =>
    obtain ⟨rfl, tree, hspelled⟩ := h
    obtain ⟨trees, hspells, htext⟩ := ih
    exact ⟨tree :: trees, .cons hspelled hspells, .item hlead hspelled htext⟩

theorem IsList.exists_trees {items : List (List Char)} {text : String} (h : IsList items text) :
    ∃ trees, List.Forall₂ Spells trees items ∧ IsText (.list trees) text := by
  cases h with
  | blanks hb h hb' =>
    obtain ⟨trees, hspells, htext⟩ := h.exists_trees
    exact ⟨trees, hspells, .blanks hb (.list htext) hb'⟩

theorem ListText.exists_items {first : Bool} {trees : List Tree} {text : List Char}
    (h : ListText Spells first trees text) :
    ∃ items, ListText (fun item text => item = text ∧ ∃ tree, Spells tree text) first items text :=
    by
  induction h with
  | close hb => exact ⟨[], .close hb⟩
  | item hlead h _ ih =>
    obtain ⟨items, htext⟩ := ih
    exact ⟨_ :: items, .item hlead ⟨rfl, _, h⟩ htext⟩

theorem ObjectText.exists_members {first : Bool} {trees : List (String × Tree)} {text : List Char}
    (h : ObjectText Spells first trees text) :
    ∃ members, ObjectText (fun value text => value = text ∧ ∃ tree, Spells tree text) first members
      text := by
  induction h with
  | close hb => exact ⟨[], .close hb⟩
  | member hlead hkey hb hb' h _ ih =>
    obtain ⟨members, htext⟩ := ih
    exact ⟨_ :: members, .member hlead hkey hb hb' ⟨rfl, _, h⟩ htext⟩

theorem IsText.exists_items {trees : List Tree} {text : String} (h : IsText (.list trees) text) :
    ∃ items, IsList items text := by
  cases h with
  | blanks hb h hb' =>
    cases h with
    | list htext =>
      obtain ⟨items, htext⟩ := htext.exists_items
      exact ⟨items, .blanks hb htext hb'⟩

theorem IsText.exists_members {trees : List (String × Tree)} {text : String}
    (h : IsText (.object trees) text) : ∃ members, IsObject members text := by
  cases h with
  | blanks hb h hb' =>
    cases h with
    | object htext =>
      obtain ⟨members, htext⟩ := htext.exists_members
      exact ⟨members, .blanks hb htext hb'⟩

end Json

/-! ## What the fields take -/

namespace Fields

/-- The values that the fields have of a list of these items. -/
def Takes (levels : Nat) : {τ : Type} → Fields τ → List (List Char) → τ → Prop
  | _, .nil, items, _ => items = []
  | _, .cons head tail, [], (value, values) =>
    head.absent = some value ∧ tail.Takes levels [] values
  | _, .cons head tail, item :: items, (value, values) =>
    head.read levels item = .ok (value, []) ∧ tail.Takes levels items values

/-- A text of the values of the fields: an object, or a list. -/
inductive Told (fs : Fields τ) (values : τ) (text : String) : Prop
  | object {members : List (String × List Char)} (h : IsObject members text)
      (hvalues : fs.Gets (Codec.levels - 1) members values)
  | list {items : List (List Char)} (h : IsList items text)
      (hvalues : fs.Takes (Codec.levels - 1) items values)

end Fields

theorem Fields.line_eq_some_iff {fs : Fields τ} (hlegible : fs.Legible) {trees : List Tree}
    {items : List (List Char)} (h : List.Forall₂ Spells trees items) (levels : Nat) (values : τ) :
    fs.line levels trees = some values ↔ fs.Takes levels items values := by
  induction fs generalizing trees items with
  | nil =>
    cases h with
    | nil => exact ⟨fun _ => rfl, fun _ => rfl⟩
    | cons => exact ⟨nofun, nofun⟩
  | cons head tail ih =>
    obtain ⟨value, values⟩ := values
    obtain ⟨hhead, htail⟩ := hlegible
    cases h with
    | nil => rw [Takes, ← ih htail .nil, line, pair_eq_some_iff]
    | cons hitem hitems =>
      rw [Takes, ← ih htail hitems, read_eq_ok_iff hhead hitem, line, pair_eq_some_iff]

/-! ## Texts among the members -/

namespace Json

/-- What the members of an object say under a name: the one string there, or else nothing. -/
inductive Says (name : String) (members : List (String × List Char)) (value : String) : Prop
  | member {text : List Char} (hmember : valuesOf name members = [text])
      (hstring : Spells (.string value) text)
  | absent (hmember : valuesOf name members = []) (hempty : value = "")

theorem ObjectText.exists_of_mem {β : Type} {R : β → List Char → Prop} {first : Bool}
    {xs : List (String × β)} {text : List Char} (h : ObjectText R first xs text) :
    ∀ m ∈ xs, ∃ text, R m.2 text := by
  induction h with
  | close => exact nofun
  | member _ _ _ _ h _ ih => exact List.forall_mem_cons.2 ⟨⟨_, h⟩, ih⟩

/-- The text of a member's value spells it. -/
theorem IsObject.exists_tree {members : List (String × List Char)} {text : String}
    (h : IsObject members text) : ∀ m ∈ members, ∃ tree, Spells tree m.2 := by
  intro m hm
  cases h with
  | blanks _ h =>
    obtain ⟨text, heq, hspelled⟩ := h.exists_of_mem m hm
    exact heq ▸ hspelled

end Json

/-- A text is read from a string, and from no other value. -/
theorem Codec.read_text_eq_ok_iff {tree : Tree} {text : List Char} (h : Spells tree text)
    (levels : Nat) (value : String) :
    Codec.text.read levels text = .ok (value, []) ↔ Spells (.string value) text := by
  have hreads : Reads Codec.text.read (.ofText .ok) := reads_ofText "a string" .ok id
  constructor
  · intro hread
    have hmeaning := hreads.toOption levels h
    rw [hread] at hmeaning
    cases tree with
    | string t =>
      cases hmeaning
      exact h
    | _ => cases hmeaning
  · exact fun hstring => eq_ok_of_toOption (hreads.toOption levels hstring)

theorem Field.gets_textOrEmpty_iff {members : List (String × List Char)} {text : String}
    (hobject : IsObject members text) (name : String) (levels : Nat) (value : String) :
    (Field.textOrEmpty name).Gets levels members value ↔ Says name members value := by
  have hread : ∀ {text : List Char}, valuesOf name members = [text] →
      (Codec.text.read levels text = .ok (value, []) ↔ Spells (.string value) text) := by
    intro text hmember
    have hm : (name, text) ∈ members := mem_valuesOf.1 (hmember ▸ List.mem_singleton_self text)
    obtain ⟨tree, hspelled⟩ := hobject.exists_tree _ hm
    exact Codec.read_text_eq_ok_iff hspelled levels value
  constructor
  · intro h
    cases h with
    | member hmember hvalue => exact .member hmember ((hread hmember).1 hvalue)
    | absent hmember habsent => exact .absent hmember (Option.some.inj habsent).symm
  · intro h
    cases h with
    | member hmember hstring => exact .member hmember ((hread hmember).2 hstring)
    | absent hmember hempty => exact .absent hmember (congrArg some hempty.symm)

/-! ## The codec of a record -/

namespace Codec

variable {title : String} {fs : Fields τ} {unpack : α → τ} {pack : τ → α}
  {shapes : List (String × Shape)}

/-- A text of a value is read as the record that the fields mean. -/
theorem decode_record_iff_meaning (hfits : fs.Fits shapes)
    (hunpack : ∀ values, unpack (pack values) = values)
    (hpack : ∀ value, pack (unpack value) = value) {tree : Tree} {text : String}
    (h : IsText tree text) (value : α) :
    (Codec.record title fs unpack pack).decode text = .ok value ↔
      fs.meaning levels tree = some (unpack value) := by
  have hreads : Reads (Codec.record title fs unpack pack).read _ :=
    reads_record hfits.understood.legible hfits.names
  rw [decode_eq_ok_iff, exists_read_iff (hreads.eq_understood ▸ hreads) h,
    ← hreads.eq_understood, Option.map_eq_some_iff]
  constructor
  · intro h
    obtain ⟨values, hvalues, rfl⟩ := h
    rw [hunpack, hvalues]
  · intro hvalues
    exact ⟨unpack value, hvalues, hpack value⟩

/-- The text of a list is read as the record whose fields take its items. -/
theorem decode_record_iff_takes (hfits : fs.Fits shapes)
    (hunpack : ∀ values, unpack (pack values) = values)
    (hpack : ∀ value, pack (unpack value) = value) {items : List (List Char)} {text : String}
    (hlist : IsList items text) (value : α) :
    (Codec.record title fs unpack pack).decode text = .ok value ↔
      fs.Takes (levels - 1) items (unpack value) := by
  obtain ⟨trees, hspells, htext⟩ := hlist.exists_trees
  rw [decode_record_iff_meaning hfits hunpack hpack htext,
    ← Fields.line_eq_some_iff hfits.understood.legible hspells]
  rfl

/-- A text of a value is read as a record exactly if it tells its fields. -/
theorem decode_record_iff_told (hfits : fs.Fits shapes)
    (hunpack : ∀ values, unpack (pack values) = values)
    (hpack : ∀ value, pack (unpack value) = value) {tree : Tree} {text : String}
    (h : IsText tree text) (value : α) :
    (Codec.record title fs unpack pack).decode text = .ok value ↔ fs.Told (unpack value) text := by
  constructor
  · intro hdecode
    cases tree with
    | object trees =>
      obtain ⟨members, hobject⟩ := h.exists_members
      exact .object hobject ((decode_record_eq_ok_iff hfits hunpack hpack hobject value).1 hdecode)
    | list trees =>
      obtain ⟨items, hlist⟩ := h.exists_items
      exact .list hlist ((decode_record_iff_takes hfits hunpack hpack hlist value).1 hdecode)
    | _ => cases (decode_record_iff_meaning hfits hunpack hpack h value).1 hdecode
  · intro htold
    cases htold with
    | object hobject hvalues =>
      exact (decode_record_eq_ok_iff hfits hunpack hpack hobject value).2 hvalues
    | list hlist hvalues =>
      exact (decode_record_iff_takes hfits hunpack hpack hlist value).2 hvalues

/-- What is read as a record begins as an object or as a list does. -/
theorem begins_of_decode_record {text : String} {value : α}
    (h : (Codec.record title fs unpack pack).decode text = .ok value) :
    ∃ c ∈ (skipBlank text.toList).head?, c = '\x7b' ∨ c = '[' := by
  obtain ⟨rest, -, hread⟩ := decode_eq_ok_iff.1 h
  simp only [Codec.record] at hread
  split at hread
  next => cases hread
  next htext => exact ⟨_, by rw [htext]; rfl, .inl rfl⟩
  next htext => exact ⟨_, by rw [htext]; rfl, .inr rfl⟩
  next => cases hread

end Codec

end ResumableUpload
