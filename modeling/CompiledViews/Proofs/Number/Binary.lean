import CompiledViews.Number.Binary

/-!
# Values that a format holds

Halving an even mantissa leaves its greatest bit where it is and raises its least one, so a value
that is put into its one representation still fits its format. The values that bits stand for are
values of single precision: narrowing them to it changes nothing.
-/

namespace CompiledViews.Binary

def IsFinite : Binary → Prop
  | finite .. => True
  | _ => False

/-- A finite value of single precision. -/
structure IsSingle (value : Binary) : Prop where
  isFinite : value.IsFinite
  hasBits : ∃ bits, value = ofBits bits

/-- However often a mantissa is halved, its greatest bit stays in its place. -/
theorem exists_ofEven (negative : Bool) (halvings : Nat) {mantissa : Nat} (nonzero : mantissa ≠ 0)
    (exponent : Int) : ∃ mantissa' exponent',
      ofEven negative halvings mantissa exponent = finite negative mantissa' exponent' ∧
        exponent ≤ exponent' ∧ (mantissa'.log2 : Int) + exponent' = mantissa.log2 + exponent := by
  induction halvings generalizing mantissa exponent with
  | zero => exact ⟨mantissa, exponent, rfl, Int.le_refl _, rfl⟩
  | succ halvings ih =>
      rw [ofEven]
      split
      case isTrue isEven =>
        have halved : mantissa.log2 = (mantissa / 2).log2 + 1 := by
          rw [Nat.log2_def, if_pos (by omega)]
        obtain ⟨mantissa', exponent', isValue, above, sameTop⟩ :=
          @ih (mantissa / 2) (by omega) (exponent + 1)
        exact ⟨mantissa', exponent', isValue, by omega, by omega⟩
      case isFalse _ => exact ⟨mantissa, exponent, rfl, Int.le_refl _, rfl⟩

theorem fits_ofParts {format : Format} (negative : Bool) {mantissa : Nat} {exponent : Int}
    (short : mantissa < Nat.pow 2 format.precision) (least : format.leastBit ≤ exponent)
    (greatest : (format.precision : Int) - 1 + exponent ≤ format.greatestBit) :
    fits format (ofParts negative mantissa exponent) = true := by
  rw [ofParts]
  split
  case isTrue _ => rfl
  case isFalse nonzero =>
    obtain ⟨mantissa', exponent', isValue, above, sameTop⟩ :=
      exists_ofEven negative mantissa.log2 nonzero exponent
    have inRange : mantissa.log2 < format.precision := (Nat.log2_lt nonzero).2 short
    rw [isValue]
    simp only [fits, Bool.or_eq_true, Bool.and_eq_true, decide_eq_true_eq]
    exact .inr ⟨⟨by omega, by omega⟩, by omega⟩

theorem fits_ofBits (bits : Nat) : fits .single (ofBits bits) = true := by
  have fraction : bits % Nat.pow 2 23 < Nat.pow 2 23 := Nat.mod_lt _ (by decide)
  have biased : bits / Nat.pow 2 23 % 256 < 256 := Nat.mod_lt _ (by decide)
  simp only [ofBits]
  split
  case isTrue _ => split <;> rfl
  case isFalse notSpecial =>
    split
    case isTrue _ =>
      exact fits_ofParts _ (Nat.lt_trans fraction (by decide)) (Int.le_refl _) (by decide)
    case isFalse isNormal =>
      apply fits_ofParts
      · show Nat.pow 2 23 + _ < Nat.pow 2 24
        simp only [Nat.pow_eq] at fraction ⊢
        omega
      · show (-149 : Int) ≤ _
        omega
      · show (24 : Int) - 1 + _ ≤ 127
        omega

theorem IsSingle.narrow_eq {value : Binary} (isSingle : value.IsSingle) :
    narrow .single value = value := by
  obtain ⟨bits, rfl⟩ := isSingle.hasBits
  unfold narrow
  exact if_pos (fits_ofBits bits)

end CompiledViews.Binary
