import ResumableUpload.Proofs.Json.Lossless

/-!
# Free-form values in writing

Whatever a free-form value is, what is written of it is a text of JSON (`spells_tree`). For lists
and objects that is the grammar over again. A number is the point: an integer is its digits, and a
double is written in one of four layouts around the digits of its shortest decimal, of which the
first is no zero (`magnitudeText_layout`).
-/

namespace ResumableUpload

namespace Decimal

/-! ## The digits of a double -/

/-- A hit on a grid is none of its origin. -/
theorem Interval.hit?_pos {i : Interval} {k : Int} {n : Nat} (h : i.hit? k = some n) : 0 < n := by
  unfold hit? at h
  simp only [Nat.pow_eq] at h
  generalize i.mid * 10 ^ (-k).toNat / (i.den * 10 ^ k.toNat) = below at h
  split at h
  next hbelow _ =>
    have hpos : below ≠ 0 := by simpa using (Bool.and_eq_true_iff.1 hbelow).2
    split at h
    · cases h; omega
    · split at h
      · cases h; omega
      · split at h <;> cases h <;> omega
  next hbelow _ =>
    have hpos : below ≠ 0 := by simpa using (Bool.and_eq_true_iff.1 hbelow).2
    cases h
    omega
  next => cases h; omega
  next => cases h

theorem Digits.trim_pos {d : Digits} (h : 0 < d.digits) (fuel : Nat) :
    0 < (d.trim fuel).digits := by
  induction fuel generalizing d with
  | zero => exact h
  | succ fuel ih =>
    rw [trim]
    split
    next hzero => exact ih (show 0 < d.digits / 10 by omega)
    next => exact h

/-- The shortest decimal has a digit, or it is nothing at all. -/
theorem shortest_pos_or_eq (b : Binary) : 0 < (shortest b).digits ∨ shortest b = ⟨0, 0⟩ := by
  unfold shortest
  simp only
  cases hfound : (List.range 17).findSome? _ with
  | none => exact .inr rfl
  | some d =>
    obtain ⟨n, -, hd⟩ := List.exists_of_findSome?_eq_some hfound
    obtain ⟨digits, hhit, rfl⟩ := Option.map_eq_some_iff.1 hd
    exact .inl (Digits.trim_pos (Interval.hit?_pos hhit) 20)

end Decimal

namespace Json

/-! ## Numbers -/

namespace Number

/-- What is written of a positive decimal. -/
def layout (d : Decimal.Digits) : List Char :=
  let digits := (toString d.digits).toList
  let point := (digits.length : Int) + d.exponent
  if 0 ≤ d.exponent ∧ point ≤ 16 then
    digits ++ List.replicate d.exponent.toNat '0' ++ ['.', '0']
  else if 0 < point ∧ point ≤ 16 then
    digits.take point.toNat ++ '.' :: digits.drop point.toNat
  else if -5 < point ∧ point ≤ 0 then
    '0' :: '.' :: (List.replicate (-point).toNat '0' ++ digits)
  else
    digits.take 1 ++ (if digits.length = 1 then [] else '.' :: digits.drop 1) ++
      'e' :: (toString (point - 1)).toList

/-- What is written of a double, without its sign. -/
def unsigned (x : Float) : List Char :=
  let b := Decimal.Binary.ofFloat x
  if b.mantissa = 0 then ['0', '.', '0'] else layout (Decimal.shortest b)

theorem writeDouble_eq (x : Float) : writeDouble x =
    (if (Decimal.Binary.ofFloat x).negative then ['-'] else []) ++ unsigned x := by
  unfold writeDouble unsigned
  simp only
  split <;> rfl

/-- The digits of a positive number do not begin with zero. -/
theorem exists_toDigits {n : Nat} (hpos : 0 < n) : ∃ d ds,
    Nat.toDigits 10 n = d :: ds ∧ d.isDigit ∧ d ≠ '0' ∧ Digits ds := by
  have hvalue : Nat.ofDigitChars 10 (Nat.toDigits 10 n) 0 = n :=
    Nat.ofDigitChars_toDigits (by decide) (by decide)
  have hwhole := wholeText_toDigits n
  generalize Nat.toDigits 10 n = text at hvalue hwhole
  cases hwhole with
  | zero =>
    have hzero : n = 0 := hvalue.symm
    omega
  | digits hd hzero hds => exact ⟨_, _, rfl, hd, hzero, hds⟩

theorem toList_ofNat (n : Nat) : (toString (Int.ofNat n)).toList = Nat.toDigits 10 n :=
  Nat.toList_repr

theorem toList_negSucc (n : Nat) :
    (toString (Int.negSucc n)).toList = '-' :: Nat.toDigits 10 (n + 1) := by
  show ("-" ++ Nat.repr (n + 1)).toList = _
  rw [String.toList_append, Nat.toList_repr]
  rfl

/-- An integer in digits is an exponent. -/
theorem exponentText_toString (i : Int) : ExponentText ('e' :: (toString i).toList) := by
  have hdigits : ∀ n, ∃ d ds, Nat.toDigits 10 n = d :: ds ∧ d.isDigit ∧ Digits ds := by
    intro n
    obtain ⟨d, ds, htext, hd⟩ := (Numeral.ofNat n).spelled.exists_digit
    have hall : Digits (Nat.toDigits 10 n) := digits_toDigits n
    have hsplit : Nat.toDigits 10 n = d :: ds := htext
    rw [hsplit] at hall
    exact ⟨d, ds, hsplit, hd, (List.forall_mem_cons.1 hall).2⟩
  cases i with
  | ofNat n =>
    obtain ⟨d, ds, htext, hd, hds⟩ := hdigits n
    rw [toList_ofNat, htext]
    show ExponentText ('e' :: ([] ++ d :: ds))
    exact .some (.inl rfl) (.inl rfl) hd hds
  | negSucc n =>
    obtain ⟨d, ds, htext, hd, hds⟩ := hdigits (n + 1)
    rw [toList_negSucc, htext]
    show ExponentText ('e' :: (['-'] ++ d :: ds))
    exact .some (.inl rfl) (.inr (.inr rfl)) hd hds

theorem digits_append {ds ds' : List Char} (h : Digits ds) (h' : Digits ds') :
    Digits (ds ++ ds') := List.forall_mem_append.2 ⟨h, h'⟩

theorem digits_zeros (n : Nat) : Digits (List.replicate n '0') := fun _ hc =>
  List.eq_of_mem_replicate hc ▸ rfl

theorem fractionText_of_ne_nil {ds : List Char} (h : Digits ds) (hne : ds ≠ []) :
    FractionText ('.' :: ds) := by
  obtain ⟨d, ds, rfl⟩ := List.exists_cons_of_ne_nil hne
  obtain ⟨hd, hds⟩ := List.forall_mem_cons.1 h
  exact .some hd hds

/-- Each layout of a positive decimal is a number. -/
theorem magnitudeText_layout {d : Decimal.Digits} (hpos : 0 < d.digits) :
    MagnitudeText (layout d) := by
  obtain ⟨c, cs, htext, hc, hzero, hcs⟩ := exists_toDigits hpos
  have hdigits : (toString d.digits).toList = c :: cs := Nat.toList_repr.trans htext
  have hall : Digits (c :: cs) := List.forall_mem_cons.2 ⟨hc, hcs⟩
  unfold layout
  simp only [hdigits]
  split
  next =>
    have hwhole : WholeText (c :: (cs ++ List.replicate d.exponent.toNat '0')) :=
      .digits hc hzero (digits_append hcs (digits_zeros _))
    have hfraction : FractionText ['.', '0'] :=
      fractionText_of_ne_nil (digits_zeros 1) (List.cons_ne_nil _ _)
    simpa using MagnitudeText.parts hwhole hfraction .none
  next hlong =>
    split
    next hpoint =>
      -- The exponent is negative here, so there are digits on both sides of the point.
      generalize hplace : ((c :: cs).length + d.exponent : Int).toNat = place
      obtain ⟨n, rfl⟩ : ∃ n : Nat, place = n + 1 := Nat.exists_eq_add_one.2 (by omega)
      have hinside : n < cs.length := by
        simp only [List.length_cons] at hplace hlong hpoint
        omega
      have hwhole : WholeText (c :: cs.take n) :=
        .digits hc hzero fun x hx => hcs x (List.mem_of_mem_take hx)
      have hfraction : FractionText ('.' :: cs.drop n) :=
        fractionText_of_ne_nil (fun x hx => hcs x (List.mem_of_mem_drop hx))
          (by simpa using hinside)
      simpa using MagnitudeText.parts hwhole hfraction .none
    next =>
      split
      next =>
        have hfraction := fractionText_of_ne_nil
          (digits_append (digits_zeros (-((c :: cs).length + d.exponent : Int)).toNat) hall)
          (List.append_ne_nil_of_right_ne_nil _ (List.cons_ne_nil c cs))
        simpa using MagnitudeText.parts .zero hfraction .none
      next =>
        have hwhole : WholeText [c] := .digits hc hzero nofun
        have hexponent := exponentText_toString ((c :: cs).length + d.exponent - 1 : Int)
        cases cs with
        | nil => exact .parts hwhole .none hexponent
        | cons c' cs =>
          have hfraction := fractionText_of_ne_nil hcs (List.cons_ne_nil c' cs)
          simpa using MagnitudeText.parts hwhole hfraction hexponent

/-- What is written of a double is a number. -/
theorem magnitudeText_unsigned (x : Float) : MagnitudeText (unsigned x) := by
  have hzero : MagnitudeText ['0', '.', '0'] :=
    .parts .zero (fractionText_of_ne_nil (digits_zeros 1) (List.cons_ne_nil _ _)) .none
  unfold unsigned
  simp only
  split
  · exact hzero
  · rcases Decimal.shortest_pos_or_eq (.ofFloat x) with hpos | hnone
    · exact magnitudeText_layout hpos
    · rw [hnone]
      exact hzero

/-- The number as a text has it. -/
def tree : Number → Tree
  | .integer (.ofNat n) => .number false (.ofNat n)
  | .integer (.negSucc n) => .number true (.ofNat (n + 1))
  | .double x => .number (Decimal.Binary.ofFloat x).negative ⟨unsigned x, magnitudeText_unsigned x⟩

theorem spells_tree (n : Number) : Spells n.tree n.write := by
  cases n with
  | integer i =>
    cases i with
    | ofNat n =>
      rw [write, toList_ofNat]
      exact .positive (.ofNat n)
    | negSucc n =>
      rw [write, toList_negSucc]
      exact .negative (.ofNat (n + 1))
  | double x =>
    rw [write, writeDouble_eq, tree]
    cases (Decimal.Binary.ofFloat x).negative with
    | false => exact .positive ⟨unsigned x, magnitudeText_unsigned x⟩
    | true => exact .negative ⟨unsigned x, magnitudeText_unsigned x⟩

end Number

/-! ## Values -/

/-- What holds of a value if it holds of its parts. -/
theorem induct {P : Json → Prop} (null : P .null) (boolean : ∀ value, P (.boolean value))
    (number : ∀ value, P (.number value)) (string : ∀ value, P (.string value))
    (list : ∀ items, (∀ item ∈ items, P item) → P (.list items))
    (object : ∀ members, (∀ m ∈ members, P m.2) → P (.object members)) (value : Json) : P value :=
  @Json.rec P (fun items => ∀ item ∈ items, P item) (fun members => ∀ m ∈ members, P m.2)
    (fun m => P m.2) null boolean number string list object nofun
    (fun _ _ h hs => List.forall_mem_cons.2 ⟨h, hs⟩) nofun
    (fun _ _ h hs => List.forall_mem_cons.2 ⟨h, hs⟩) (fun _ _ h => h) value

mutual

/-- The value as a text has it. -/
def tree : Json → Tree
  | .null => .null
  | .boolean value => .boolean value
  | .number n => n.tree
  | .string value => .string value
  | .list items => .list (itemTrees items)
  | .object members => .object (memberTrees members)

def itemTrees : List Json → List Tree
  | [] => []
  | item :: rest => item.tree :: itemTrees rest

def memberTrees : List (String × Json) → List (String × Tree)
  | [] => []
  | (key, value) :: rest => (key, value.tree) :: memberTrees rest

end

theorem eq_null_of_tree {value : Json} (h : value.tree = .null) : value = .null := by
  cases value with
  | null => rfl
  | number n =>
    rw [tree, Number.tree.eq_def] at h
    split at h <;> cases h
  | _ => cases h

theorem itemTrees_eq_map (items : List Json) : itemTrees items = items.map tree := by
  induction items with
  | nil => rfl
  | cons item rest ih => rw [itemTrees, ih, List.map_cons]

theorem memberTrees_eq_map (members : List (String × Json)) :
    memberTrees members = members.map fun m => (m.1, m.2.tree) := by
  induction members with
  | nil => rfl
  | cons m rest ih => rw [memberTrees, ih, List.map_cons]

theorem writeItems_eq_joined (items : List Json) :
    writeItems items = Codec.list.joined (items.map write) := by
  induction items with
  | nil => rfl
  | cons item rest ih =>
    cases rest with
    | nil => rfl
    | cons next rest =>
      rw [writeItems, ih]
      · rfl
      · exact List.cons_ne_nil next rest

theorem writeMembers_eq_joined (members : List (String × Json)) : writeMembers members =
    Codec.list.joined (members.map fun m => writeString m.1 ++ ':' :: m.2.write) := by
  induction members with
  | nil => rfl
  | cons m rest ih =>
    cases rest with
    | nil => rfl
    | cons next rest =>
      rw [writeMembers, ih]
      · simp [Codec.list.joined]
      · exact List.cons_ne_nil next rest

/-- What is written of a value is a text of it. -/
theorem spells_tree (value : Json) : Spells value.tree value.write := by
  induction value using induct with
  | null => exact .nullWord
  | boolean value => cases value <;> constructor
  | number n =>
    rw [tree, write]
    exact n.spells_tree
  | string value => exact spells_written value
  | list items ih =>
    have htexts : List.Forall₂ Spells (items.map tree) (items.map write) := by
      rw [List.forall₂_map_left_iff, List.forall₂_map_right_iff, List.forall₂_same]
      exact ih
    rw [tree, write, itemTrees_eq_map, writeItems_eq_joined]
    exact .list (Codec.listText_joined htexts)
  | object members ih =>
    have htexts : List.Forall₂ MemberText (members.map fun m => (m.1, m.2.tree))
        (members.map fun m => writeString m.1 ++ ':' :: m.2.write) := by
      rw [List.forall₂_map_left_iff, List.forall₂_map_right_iff, List.forall₂_same]
      exact fun m hm => ⟨m.2.write, rfl, ih m hm⟩
    rw [tree, write, memberTrees_eq_map, writeMembers_eq_joined]
    exact .object (objectText_joined htexts)

end Json

end ResumableUpload
