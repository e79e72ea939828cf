import Mathlib
import LinProg.Proofs.Scalar.Lawful
import LinProg.Scalar.Binary

/-!
Binary floating-point numbers are lawful scalars. A negation changes the sign of a number and
nothing else, so it is not rounded, and neither is a sum with a zero.
-/

namespace LinProg

open Float.Model (UnpackedFloat Format)
open Float.Model.UnpackedFloat

namespace Binary

theorem unpack_pack_unpack (b : BitVec Format.binary64.numBits) :
    unpack Format.binary64 (pack Format.binary64 (unpack Format.binary64 b)) =
      unpack Format.binary64 b := by
  rw [pack_unpack b]
  cases h : isNaNBits b with
  | true =>
    simp only [isNaNBits, decide_eq_true_eq] at h
    rw [if_pos rfl, unpack_packedNaN]
    simp [unpack, h]
  | false => rfl

theorem unpack_injective {x y : Float} (h : x.toModel.unpack = y.toModel.unpack) : x = y := by
  obtain ⟨⟨bits, hbits⟩⟩ := x
  obtain ⟨⟨bits', hbits'⟩⟩ := y
  have heq : bits.toBitVec = bits'.toBitVec := (unpack_inj_of_valid hbits hbits').1 h
  obtain rfl := UInt64.toBitVec_inj.1 heq
  rfl

/-- The number of the same bits under the other sign. -/
theorem neg_unpack (b : BitVec Format.binary64.numBits) :
    (unpack Format.binary64 b).neg = unpack Format.binary64
      (packComponents Format.binary64 (-(Sign.ofBitVec (unpackSign b))) (unpackExponent b)
        (unpackMantissa b)) := by
  simp only [unpack, unpackExponent_packComponents, unpackMantissa_packComponents,
    unpackSign_packComponents, Sign.ofBitVec_toBitVec]
  split
  · split <;> rfl
  · split
    · split <;> rfl
    · rfl

theorem scaled_neg (m e : Int) : scaled (-m) e = -scaled m e := by
  rw [scaled, scaled]
  split
  · simp
  · rw [← Rat.neg_mkRat]

theorem exact_neg (u : UnpackedFloat) : exact u.neg = (exact u).neg := by
  cases u with
  | notANumber => rfl
  | infinity s => cases s <;> rfl
  | zero s => rfl
  | finite s m e hm =>
    have happly : (-s).apply m = -s.apply m := by cases s <;> simp [Sign.apply]
    change Extended.fin (scaled ((-s).apply m) e) = .fin (-scaled (s.apply m) e)
    rw [happly, scaled_neg]

theorem value_neg (x : Float) : value (-x) = (value x).neg := by
  have hneg : (-x).toModel.unpack = x.toModel.unpack.neg := by
    change unpack Format.binary64 (pack Format.binary64 x.toModel.unpack.neg) = _
    rw [Float.Model.unpack, neg_unpack, unpack_pack_unpack]
  rw [value, hneg, exact_neg, value]

end Binary

instance : LawfulScalar Float where
  value_zero := by decide +kernel
  value_one := by decide +kernel
  value_negInf := by decide +kernel
  value_posInf := by decide +kernel
  value_neg := Binary.value_neg

namespace Binary

theorem zero_add_cases (x : Float) : 0 + x = x ∨ (0 : Float) + x = 0 ∧ Scalar.isZero x = true := by
  have hzero : (0 : Float).toModel.unpack = .zero .positive := rfl
  have hadd : 0 + x = .ofModel (.pack (UnpackedFloat.add Format.binary64 (.zero .positive)
      x.toModel.unpack)) := by
    rw [← hzero]
    rfl
  -- The number that is unpacked from `x` is packed again as it is.
  have hself : Float.ofModel (.pack x.toModel.unpack) = x :=
    unpack_injective (unpack_pack_unpack _)
  cases hx : x.toModel.unpack with
  | zero s =>
    refine .inr ⟨?_, ?_⟩
    · rw [hadd, hx]
      cases s <;> decide +kernel
    · rw [Scalar.isZero, Scalar.same, LawfulScalar.value_zero]
      change (value x).same (.fin 0) = true
      rw [value, hx]
      rfl
  | notANumber | infinity s | finite s m e hm =>
    rw [hx] at hadd hself
    exact .inl (hadd.trans hself)

end Binary

instance : LawfulSum Float where
  zero_add x h := by
    obtain hx | ⟨-, hx⟩ := Binary.zero_add_cases x
    · exact hx
    · simp [Scalar.nonzero, hx] at h
  isZero_zero_add x h := by
    obtain hx | ⟨hx, -⟩ := Binary.zero_add_cases x
    · rwa [hx]
    · rw [hx]
      exact LawfulScalar.isZero_zero

end LinProg
