import Mathlib

/-!
# Positive doubles of moderate size

A count of bytes, divided by a time of any length from a nanosecond to the longest span, is a double
that is neither zero nor infinite. That is a statement on rounding: the quotient of two doubles is
zero where it is too small for the format, and a sum or a quotient is infinite where it is too
large.

Here the size of a double is the place of its first binary digit. `Moderate places u` says that `u`
is positive and normal and that this digit stands at most so many places from the point. A natural
number of 64 bits is moderate, and so is each sum and each quotient of moderate doubles, as long as
their bounds together stay below 1021 places, where the normal doubles end.
-/

namespace ResumableUpload.Decimal

open Float.Model Float.Model.UnpackedFloat

/-- A positive normal double whose first binary digit stands at most so many places from the
point; the digit of the units stands at place one. -/
def Moderate (places : Nat) : UnpackedFloat → Prop
  | .finite .positive m e _ => m.log2 = 52 ∧ (e + 53).natAbs ≤ places
  | _ => False

theorem Moderate.exists_eq {u : UnpackedFloat} {places : Nat} (h : Moderate places u) :
    ∃ m e, ∃ hm : 0 < m, u = .finite .positive m e hm ∧ m.log2 = 52 ∧ (e + 53).natAbs ≤ places := by
  obtain _ | _ | _ | ⟨_ | _, m, e, hm⟩ := u
  case finite.positive => exact ⟨m, e, hm, rfl, h⟩
  all_goals exact h.elim

theorem Moderate.mono {u : UnpackedFloat} {a b : Nat} (h : Moderate a u) (hab : a ≤ b) :
    Moderate b u := by
  obtain ⟨m, e, hm, rfl, digits, place⟩ := h.exists_eq
  exact ⟨digits, Nat.le_trans place hab⟩

/-! ## Rounding

The place of the first digit is `totalExponent`. Rounding may carry into the next place, and does
nothing else to it. -/

theorem shiftRight_mantissa (em : ExtendedMantissa) (k : Nat) :
    (em >>> k).mantissa = em.mantissa / 2 ^ k := by
  induction k with
  | zero => simp [HShiftRight.hShiftRight, Nat.repeat]
  | succ k ih =>
    change (em >>> k).mantissa / 2 = _
    rw [ih, Nat.div_div_eq_div_mul, Nat.pow_succ]

theorem ofMantissaAndAccuracy_mantissa (m : Nat) (accuracy : Accuracy) :
    (ExtendedMantissa.ofMantissaAndAccuracy m accuracy).mantissa = m := by
  rcases accuracy with _ | (_ | _ | _) <;> rfl

theorem roundedMantissa_bounds (em : ExtendedMantissa) :
    em.mantissa ≤ em.roundedMantissa ∧ em.roundedMantissa ≤ em.mantissa + 1 := by
  rcases em with ⟨m, _ | _, _ | _⟩ <;>
    simp [ExtendedMantissa.roundedMantissa, ExtendedMantissa.accuracy,
      Accuracy.roundToNearestEven]
  omega

/-- A normal number keeps 53 digits. -/
theorem targetExponent_eq {t : Int} (h : -1021 ≤ t) :
    Format.binary64.targetExponent t = t - 53 := by
  simp only [Format.targetExponent, Format.mantissaBits, Format.minExponent]
  omega

theorem log2_div_two_pow {m k : Nat} (h : m.log2 = 52 + k) : (m / 2 ^ k).log2 = 52 := by
  have hm : m ≠ 0 := by
    rintro rfl
    simp at h
    omega
  obtain ⟨low, high⟩ := (Nat.log2_eq_iff hm).mp h
  have hpos : 0 < 2 ^ k := Nat.two_pow_pos k
  have hlow : 2 ^ 52 ≤ m / 2 ^ k := by
    rw [Nat.le_div_iff_mul_le hpos, ← Nat.pow_add]
    exact low
  have hhigh : m / 2 ^ k < 2 ^ 53 := by
    rw [Nat.div_lt_iff_lt_mul hpos, ← Nat.pow_add, show 53 + k = 52 + k + 1 by omega]
    exact high
  exact (Nat.log2_eq_iff (by omega)).mpr ⟨hlow, hhigh⟩

/-- Dropping digits leaves 53 of them, and the first one in its place. -/
theorem shiftToTargetExponent_digits {m : Nat} {e : Int} (accuracy : Accuracy)
    (hm : 52 ≤ m.log2) (normal : -1021 ≤ totalExponent m e) :
    (shiftToTargetExponent Format.binary64 m e accuracy).1.mantissa.log2 = 52 ∧
      (shiftToTargetExponent Format.binary64 m e accuracy).2 = totalExponent m e - 53 := by
  have shift : (totalExponent m e - 53 - e).toNat = m.log2 - 52 := by
    unfold totalExponent
    omega
  simp only [shiftToTargetExponent, shiftToExponent, targetExponent_eq normal, shift,
    shiftRight_mantissa, ofMantissaAndAccuracy_mantissa]
  refine ⟨log2_div_two_pow (by omega), ?_⟩
  unfold totalExponent
  omega

/-- What is rounded is moderate, as far as its first digit and the next place are. -/
theorem moderate_roundWithAccuracy {m : Nat} {e : Int} (accuracy : Accuracy) {places : Nat}
    (hm : 52 ≤ m.log2) (small : places ≤ 1021) (bound : (totalExponent m e).natAbs < places) :
    Moderate places (roundWithAccuracy Format.binary64 .positive m e accuracy) := by
  have normal : -1021 ≤ totalExponent m e := by omega
  obtain ⟨first, place⟩ := shiftToTargetExponent_digits accuracy hm normal
  set shifted := shiftToTargetExponent Format.binary64 m e accuracy with hshifted
  set rounded := shifted.1.roundedMantissa with hrounded
  -- rounding up can reach the next power of two, with one digit too many
  obtain ⟨low, high⟩ := roundedMantissa_bounds shifted.1
  have hne : shifted.1.mantissa ≠ 0 := by
    intro h
    simp [h] at first
  obtain ⟨hlow, hhigh⟩ := (Nat.log2_eq_iff hne).mp first
  have hdigits : 52 ≤ rounded.log2 := (Nat.le_log2 (by omega)).mpr (by omega)
  have hcarry : rounded.log2 < 54 := (Nat.log2_lt (by omega)).mpr (by omega)
  have total : totalExponent rounded shifted.2 = totalExponent m e + (rounded.log2 - 52) := by
    rw [place]
    unfold totalExponent
    omega
  obtain ⟨last, at'⟩ := shiftToTargetExponent_digits .exact hdigits (e := shifted.2) (by omega)
  unfold roundWithAccuracy
  simp only [← hshifted, ← hrounded]
  rw [dif_neg (by intro h; simp [h] at last)]
  refine ⟨last, ?_⟩
  rw [at', total]
  omega

theorem log2_shiftLeft {m : Nat} (hm : m ≠ 0) (k : Nat) : (m <<< k).log2 = m.log2 + k := by
  induction k with
  | zero => simp
  | succ k ih =>
    have hne : m <<< k ≠ 0 := Nat.ne_of_gt (Nat.shiftLeft_pos_iff.mpr (Nat.pos_of_ne_zero hm))
    rw [Nat.shiftLeft_succ, Nat.log2_two_mul hne, ih, Nat.add_assoc]

theorem moderate_round {m : Nat} {e : Int} {places : Nat} (hm : 0 < m) (small : places ≤ 1021)
    (bound : (totalExponent m e).natAbs < places) :
    Moderate places (UnpackedFloat.round Format.binary64 .positive m e) := by
  have normal : -1021 ≤ totalExponent m e := by omega
  simp only [UnpackedFloat.round, decreaseExponent, targetExponent_eq normal]
  set k := (e - (totalExponent m e - 53)).toNat with hk
  have hlog : (m <<< k).log2 = m.log2 + k := log2_shiftLeft (by omega) k
  have total : totalExponent (m <<< k) (e - k) = totalExponent m e := by
    unfold totalExponent
    omega
  refine moderate_roundWithAccuracy _ ?_ small (by rwa [total])
  unfold totalExponent at hk
  omega

/-! ## Packing

A moderate double is read back from its bits. -/

/-- Bits whose exponent is neither of the two that are set apart stand for a normal double. -/
theorem unpack_packComponents {sign : Sign} {exponent : BitVec 11} {mantissa : BitVec 52} {m : Nat}
    (hm : 0 < m) (digits : (1#1 ++ mantissa).toNat = m) (notAll : exponent ≠ -1#11)
    (notZero : exponent ≠ 0#11) :
    UnpackedFloat.unpack Format.binary64
        (packComponents Format.binary64 sign exponent mantissa) =
      .finite sign m (exponent.toNat - 1075) hm := by
  subst digits
  simp only [UnpackedFloat.unpack, unpackExponent_packComponents, unpackMantissa_packComponents,
    unpackSign_packComponents, Sign.ofBitVec_toBitVec, if_neg notAll, if_neg notZero]
  rfl

/-- The leading digit, which the bits leave out, and the rest. -/
theorem one_append_ofNat {m : Nat} (low : 2 ^ 52 ≤ m) (high : m < 2 ^ 53) :
    (1#1 ++ BitVec.ofNat 52 m).toNat = m := by
  rw [BitVec.toNat_append, ← Nat.shiftLeft_add_eq_or_of_lt (BitVec.isLt _)]
  simp only [BitVec.toNat_ofNat, Nat.shiftLeft_eq]
  omega

theorem pack_eq {m : Nat} {e : Int} {hm : 0 < m} (digits : m.log2 = 52)
    (place : (e + 53).natAbs ≤ 1021) :
    UnpackedFloat.pack Format.binary64 (.finite .positive m e hm) =
      packComponents Format.binary64 .positive (BitVec.ofNat 11 (e + 1075).toNat)
        (BitVec.ofNat 52 m) := by
  have biased :
      (e + (Format.binary64.exponentBias : Int) + (52 : Nat)).toNat = (e + 1075).toNat := by
    simp only [Format.exponentBias]
    omega
  have finite : ¬ 2 ^ 11 ≤ (e + 1075).toNat + 1 := by omega
  have normal : m.log2 + 1 = Format.binary64.mantissaBits := by
    rw [digits]
    rfl
  simp only [UnpackedFloat.pack, biased, if_neg finite, if_pos normal]

theorem unpack_pack {u : UnpackedFloat} {places : Nat} (h : Moderate places u)
    (small : places ≤ 1021) : (Float.Model.pack u).unpack = u := by
  obtain ⟨m, e, hm, rfl, digits, place⟩ := h.exists_eq
  obtain ⟨low, high⟩ := (Nat.log2_eq_iff (Nat.ne_of_gt hm)).mp digits
  have field : (BitVec.ofNat 11 (e + 1075).toNat).toNat = (e + 1075).toNat := by
    rw [BitVec.toNat_ofNat, Nat.mod_eq_of_lt (by omega)]
  have notAll : BitVec.ofNat 11 (e + 1075).toNat ≠ -1#11 := by
    intro all
    rw [all] at field
    change 2047 = _ at field
    omega
  have notZero : BitVec.ofNat 11 (e + 1075).toNat ≠ 0#11 := by
    intro zero
    rw [zero] at field
    change 0 = _ at field
    omega
  change UnpackedFloat.unpack Format.binary64 (UnpackedFloat.pack Format.binary64 _) = _
  rw [pack_eq digits (by omega),
    unpack_packComponents hm (one_append_ofNat low high) notAll notZero, field]
  congr 1
  omega

theorem moderate_pack {u : UnpackedFloat} {places : Nat} (h : Moderate places u)
    (small : places ≤ 1021) : Moderate places (Float.Model.pack u).unpack := by
  rwa [unpack_pack h small]

/-! ## Arithmetic -/

theorem moderate_toFloat {n : UInt64} (hn : n ≠ 0) : Moderate 65 n.toFloat.toModel.unpack := by
  have hpos : 0 < n.toNat := by
    rw [Nat.pos_iff_ne_zero]
    exact fun h => hn (UInt64.toNat_inj.mp h)
  have digits : n.toNat.log2 < 64 := (Nat.log2_lt (Nat.ne_of_gt hpos)).mpr n.toNat_lt
  refine moderate_pack ?_ (by decide)
  have positive : compare (n.toNat : Int) 0 = .gt := by
    rw [Int.compare_eq_gt]
    omega
  simp only [UnpackedFloat.ofUInt64, UnpackedFloat.ofNat, UnpackedFloat.ofInt,
    UnpackedFloat.normalize, positive, Int.toNat_natCast]
  refine moderate_round hpos (by decide) ?_
  unfold totalExponent
  omega

theorem divCore_eq {m₁ m₂ : Nat} {e₁ e₂ : Int} (h₁ : m₁.log2 = 52) (h₂ : m₂.log2 = 52)
    (normal : -1021 ≤ e₁ - e₂) :
    divCore Format.binary64 m₁ e₁ m₂ e₂ =
      ((m₁ <<< 53) / m₂, e₁ - e₂ - 53, accuracyOfFraction ((m₁ <<< 53) % m₂) m₂) := by
  have total : totalExponent m₁ e₁ - totalExponent m₂ e₂ = e₁ - e₂ := by
    unfold totalExponent
    omega
  have target : min (e₁ - e₂) (e₁ - e₂ - 53) = e₁ - e₂ - 53 := by omega
  have shift : (e₁ - e₂ - (e₁ - e₂ - 53)).toNat = 53 := by omega
  simp only [divCore, total, targetExponent_eq (t := e₁ - e₂) (by omega), target, shift]

/-- The quotient of two numbers of 53 digits, the first one shifted by as many, has 53 or 54. -/
theorem log2_quotient {m₁ m₂ : Nat} (h₁ : m₁.log2 = 52) (h₂ : m₂.log2 = 52) :
    52 ≤ (m₁ <<< 53 / m₂).log2 ∧ (m₁ <<< 53 / m₂).log2 ≤ 53 := by
  have ne₁ : m₁ ≠ 0 := by rintro rfl; simp at h₁
  have ne₂ : m₂ ≠ 0 := by rintro rfl; simp at h₂
  obtain ⟨low₁, high₁⟩ := (Nat.log2_eq_iff ne₁).mp h₁
  obtain ⟨low₂, high₂⟩ := (Nat.log2_eq_iff ne₂).mp h₂
  have hpos : 0 < m₂ := Nat.pos_of_ne_zero ne₂
  have low : 2 ^ 52 ≤ m₁ <<< 53 / m₂ := by
    rw [Nat.le_div_iff_mul_le hpos, Nat.shiftLeft_eq]
    omega
  have high : m₁ <<< 53 / m₂ < 2 ^ 54 := by
    rw [Nat.div_lt_iff_lt_mul hpos, Nat.shiftLeft_eq]
    omega
  have hne : m₁ <<< 53 / m₂ ≠ 0 := by omega
  exact ⟨(Nat.le_log2 hne).mpr low, Nat.lt_succ_iff.mp ((Nat.log2_lt hne).mpr high)⟩

theorem moderate_div {x y : Float} {a b : Nat} (hx : Moderate a x.toModel.unpack)
    (hy : Moderate b y.toModel.unpack) (small : a + b + 2 ≤ 1021) :
    Moderate (a + b + 2) (x / y).toModel.unpack := by
  refine moderate_pack ?_ (by omega)
  obtain ⟨m₁, e₁, hm₁, hu, digits₁, place₁⟩ := hx.exists_eq
  obtain ⟨m₂, e₂, hm₂, hv, digits₂, place₂⟩ := hy.exists_eq
  obtain ⟨low, high⟩ := log2_quotient digits₁ digits₂
  have sign : Sign.positive / Sign.positive = .positive := rfl
  have normal : -1021 ≤ e₁ - e₂ := by omega
  simp only [hu, hv, UnpackedFloat.div, divCore_eq digits₁ digits₂ normal, sign]
  refine moderate_roundWithAccuracy _ low (by omega) ?_
  unfold totalExponent
  omega

/-- A sum has as many digits as the longer of the two, or one more. -/
theorem log2_add {left : Nat} (right : Nat) (hne : left ≠ 0) :
    max left.log2 right.log2 ≤ (left + right).log2 ∧
      (left + right).log2 ≤ max left.log2 right.log2 + 1 := by
  have bound {n : Nat} (h : n.log2 ≤ max left.log2 right.log2) :
      n < 2 ^ (max left.log2 right.log2 + 1) :=
    Nat.lt_of_lt_of_le Nat.lt_log2_self (Nat.pow_le_pow_right (by decide) (by omega))
  have high_left := bound (Nat.le_max_left left.log2 right.log2)
  have high_right := bound (Nat.le_max_right left.log2 right.log2)
  have sum_ne : left + right ≠ 0 := by omega
  refine ⟨Nat.max_le.mpr ⟨?_, ?_⟩, Nat.lt_succ_iff.mp ((Nat.log2_lt sum_ne).mpr ?_)⟩
  · exact (Nat.le_log2 sum_ne).mpr (by have := Nat.log2_self_le hne; omega)
  · by_cases right_ne : right = 0
    · simp [right_ne]
    · exact (Nat.le_log2 sum_ne).mpr (by have := Nat.log2_self_le right_ne; omega)
  · rw [Nat.succ_eq_add_one, Nat.pow_succ]
    omega

theorem moderate_add {x y : Float} {a b : Nat} (hx : Moderate a x.toModel.unpack)
    (hy : Moderate b y.toModel.unpack) (small : a + b + 2 ≤ 1021) :
    Moderate (a + b + 2) (x + y).toModel.unpack := by
  refine moderate_pack ?_ (by omega)
  obtain ⟨m₁, e₁, hm₁, hu, digits₁, place₁⟩ := hx.exists_eq
  obtain ⟨m₂, e₂, hm₂, hv, digits₂, place₂⟩ := hy.exists_eq
  -- both are written with the smaller of the two exponents
  generalize hleft : m₁ <<< (e₁ - min e₁ e₂).toNat = left
  generalize hright : m₂ <<< (e₂ - min e₁ e₂).toNat = right
  have log2_left : left.log2 = 52 + (e₁ - min e₁ e₂).toNat := by
    rw [← hleft, log2_shiftLeft (by omega), digits₁]
  have log2_right : right.log2 = 52 + (e₂ - min e₁ e₂).toNat := by
    rw [← hright, log2_shiftLeft (by omega), digits₂]
  have left_ne : left ≠ 0 := by rintro rfl; simp at log2_left; omega
  obtain ⟨low, high⟩ := log2_add right left_ne
  have sum : Sign.positive.apply left + Sign.positive.apply right = ((left + right : Nat) : Int) :=
    rfl
  have positive : compare ((left + right : Nat) : Int) 0 = .gt := by
    rw [Int.compare_eq_gt]
    omega
  simp only [hu, hv, UnpackedFloat.add, decreaseExponent, hleft, hright, sum,
    UnpackedFloat.normalize, positive, Int.toNat_natCast]
  refine moderate_round (by omega) (by omega) ?_
  unfold totalExponent
  omega

/-! ## Zero and order -/

/-- Zero, or positive and of moderate size. -/
def Bounded (places : Nat) (u : UnpackedFloat) : Prop := u = .zero .positive ∨ Moderate places u

theorem bounded_toFloat (n : UInt64) : Bounded 65 n.toFloat.toModel.unpack := by
  by_cases hn : n = 0
  · subst hn
    exact .inl rfl
  · exact .inr (moderate_toFloat hn)

theorem unpack_zero_div {x y : Float} {b : Nat} (hx : x.toModel.unpack = .zero .positive)
    (hy : Moderate b y.toModel.unpack) : (x / y).toModel.unpack = .zero .positive := by
  obtain ⟨m, e, hm, hv, -, -⟩ := hy.exists_eq
  change (Float.Model.pack (UnpackedFloat.div _ x.toModel.unpack y.toModel.unpack)).unpack = _
  simp only [hx, hv, UnpackedFloat.div]
  rfl

theorem bounded_div {x y : Float} {a b : Nat} (hx : Bounded a x.toModel.unpack)
    (hy : Moderate b y.toModel.unpack) (small : a + b + 2 ≤ 1021) :
    Bounded (a + b + 2) (x / y).toModel.unpack :=
  hx.imp (unpack_zero_div · hy) (moderate_div · hy small)

theorem unpack_zero_add {x y : Float} {b : Nat} (hx : x.toModel.unpack = .zero .positive)
    (hy : Moderate b y.toModel.unpack) (small : b ≤ 1021) :
    (x + y).toModel.unpack = y.toModel.unpack := by
  obtain ⟨m, e, hm, hv, -, -⟩ := hy.exists_eq
  refine Eq.trans ?_ (unpack_pack hy small)
  change (Float.Model.pack (UnpackedFloat.add _ x.toModel.unpack y.toModel.unpack)).unpack = _
  simp only [hx, hv, UnpackedFloat.add]

theorem unpack_add_zero {x y : Float} {a : Nat} (hx : Moderate a x.toModel.unpack)
    (hy : y.toModel.unpack = .zero .positive) (small : a ≤ 1021) :
    (x + y).toModel.unpack = x.toModel.unpack := by
  obtain ⟨m, e, hm, hu, -, -⟩ := hx.exists_eq
  refine Eq.trans ?_ (unpack_pack hx small)
  change (Float.Model.pack (UnpackedFloat.add _ x.toModel.unpack y.toModel.unpack)).unpack = _
  simp only [hy, hu, UnpackedFloat.add]

/-- A sum is of moderate size if one side is, and the other is zero or of moderate size. -/
theorem moderate_add_of_bounded {x y : Float} {a b : Nat} (hx : Bounded a x.toModel.unpack)
    (hy : Bounded b y.toModel.unpack) (small : a + b + 2 ≤ 1021)
    (h : Moderate a x.toModel.unpack ∨ Moderate b y.toModel.unpack) :
    Moderate (a + b + 2) (x + y).toModel.unpack := by
  obtain hx' | hx' := hx <;> obtain hy' | hy' := hy
  · obtain h | h := h
    · rw [hx'] at h
      exact h.elim
    · rw [hy'] at h
      exact h.elim
  · rw [unpack_zero_add hx' hy' (by omega)]
    exact hy'.mono (by omega)
  · rw [unpack_add_zero hx' hy' (by omega)]
    exact hx'.mono (by omega)
  · exact moderate_add hx' hy' small

theorem unpack_zero : (0 : Float).toModel.unpack = .zero .positive := rfl

theorem lt_iff_unpack (x y : Float) : x < y ↔ x.toModel.unpack.lt y.toModel.unpack = true := by
  change decide (x.toModel < y.toModel) = true ↔ _
  rw [decide_eq_true_iff]
  rfl

theorem le_iff_unpack (x y : Float) : x ≤ y ↔ x.toModel.unpack.le y.toModel.unpack = true := by
  change decide (x.toModel ≤ y.toModel) = true ↔ _
  rw [decide_eq_true_iff]
  rfl

theorem pos_of_moderate {x : Float} {places : Nat} (h : Moderate places x.toModel.unpack) :
    0 < x := by
  obtain ⟨m, e, hm, hu, -, -⟩ := h.exists_eq
  rw [lt_iff_unpack, unpack_zero, hu]
  rfl

theorem not_pos_of_zero {x : Float} (h : x.toModel.unpack = .zero .positive) : ¬ 0 < x := by
  rw [lt_iff_unpack, unpack_zero, h]
  decide

theorem not_neg_of_bounded {x : Float} {places : Nat} (h : Bounded places x.toModel.unpack) :
    ¬ x < 0 := by
  rw [lt_iff_unpack, unpack_zero]
  obtain hu | h := h
  · rw [hu]
    decide
  · obtain ⟨m, e, hm, hu, -, -⟩ := h.exists_eq
    rw [hu]
    exact Bool.false_ne_true

/-- Of what is not negative, and a number, all that is not positive is zero. -/
theorem le_zero_iff_not_pos {x : Float} {places : Nat} (h : Bounded places x.toModel.unpack) :
    x ≤ 0 ↔ ¬ 0 < x := by
  rw [le_iff_unpack, lt_iff_unpack, unpack_zero]
  obtain hu | h := h
  · rw [hu]
    decide
  · obtain ⟨m, e, hm, hu, -, -⟩ := h.exists_eq
    rw [hu]
    exact iff_of_false Bool.false_ne_true (not_not_intro rfl)

end ResumableUpload.Decimal
