import Dialogue.Value
import Mathlib

/-!
# Numbers that stand for identifiers

An event is addressed by a number among its parameters, and numbers compare as numbers do. So an
event finds the one that it is meant for only if no identifier is written as something that differs
from itself. The number of a natural number never is: it is finite, or infinite if the natural
number is very large.

## Main results

* `Value.ofNat_beq_self` — the number of a natural number is equal to itself
-/

namespace Dialogue.Value

open Float.Model

/-- Everything but what is not a number is equal to itself. -/
theorem compare_self {x : UnpackedFloat} (h : x ≠ .notANumber) : x.compare x = some .eq := by
  cases x with
  | infinity s => cases s <;> rfl
  | notANumber => exact absurd rfl h
  | zero s => cases s <;> rfl
  | finite s m e pos => cases s <;> simp [UnpackedFloat.compare]

/-! ## Rounding -/

theorem roundWithAccuracy_ne (spec : Float.Model.Format) (s : UnpackedFloat.Sign) (m : Nat)
    (e : Int) (a : UnpackedFloat.Accuracy) :
    UnpackedFloat.roundWithAccuracy spec s m e a ≠ .notANumber := by
  unfold UnpackedFloat.roundWithAccuracy
  dsimp only
  split <;> simp

theorem ofNat_ne (spec : Float.Model.Format) (n : Nat) :
    UnpackedFloat.ofNat spec n ≠ .notANumber := by
  unfold UnpackedFloat.ofNat UnpackedFloat.ofInt UnpackedFloat.normalize
  split
  · exact roundWithAccuracy_ne _ _ _ _ _
  · simp
  · exact roundWithAccuracy_ne _ _ _ _ _

theorem mul_ne (spec : Float.Model.Format) {x : UnpackedFloat} (hx : x ≠ .notANumber)
    (s : UnpackedFloat.Sign) (m : Nat) (e : Int) (pos : 0 < m) :
    UnpackedFloat.mul spec x (.finite s m e pos) ≠ .notANumber := by
  cases x with
  | notANumber => exact absurd rfl hx
  | finite => exact roundWithAccuracy_ne _ _ _ _ _
  | infinity => simp [UnpackedFloat.mul]
  | zero => simp [UnpackedFloat.mul]

theorem ofScientific_ne (spec : Float.Model.Format) (m : Nat) {e : Int} (he : 0 ≤ e) :
    UnpackedFloat.ofScientific spec m e ≠ .notANumber := by
  unfold UnpackedFloat.ofScientific
  split
  · simp
  split
  · simp
  split
  · simp
  exact mul_ne _ (by simp) _ _ _ _

/-! ## Packing -/

/-- What is not a number has all bits of the exponent set, and some of the mantissa. -/
theorem unpack_eq_notANumber {spec : Float.Model.Format} {b : BitVec spec.numBits}
    (h : UnpackedFloat.unpack spec b = .notANumber) :
    UnpackedFloat.unpackExponent b = -BitVec.ofNat _ 1 ∧
      UnpackedFloat.unpackMantissa b ≠ BitVec.ofNat _ 0 := by
  unfold UnpackedFloat.unpack at h
  dsimp only at h
  split at h
  · next he =>
    split at h
    · cases h
    · next hm => exact ⟨he, hm⟩
  · split at h
    · split at h <;> cases h
    · cases h

/-- Packing makes no number into something else. -/
theorem unpack_pack_ne {x : UnpackedFloat} (h : x ≠ .notANumber) :
    (pack x).unpack ≠ .notANumber := by
  intro hnan
  obtain ⟨he, hm⟩ := unpack_eq_notANumber hnan
  simp only [pack] at he hm
  cases x with
  | notANumber => exact h rfl
  | infinity s => simp [UnpackedFloat.pack, UnpackedFloat.packedInfinity] at hm
  | zero s => simp [UnpackedFloat.pack, UnpackedFloat.packedZero] at he
  | finite s m e pos =>
    simp only [UnpackedFloat.pack] at he hm
    -- A number that is too large becomes infinite, and the mantissa of that is zero.
    split at hm
    · simp [UnpackedFloat.packedInfinity] at hm
    · next small =>
      rw [if_neg small] at he
      -- The exponent of any other one is too small to have all its bits set.
      split at he
      · rw [UnpackedFloat.unpackExponent_packComponents, ← BitVec.toNat_inj,
          BitVec.toNat_ofNat] at he
        have ones : (-BitVec.ofNat Float.Model.Format.binary64.exponentBits 1).toNat = 2047 := by
          decide
        rw [ones] at he
        simp only [Nat.not_le] at small
        omega
      · rw [UnpackedFloat.unpackExponent_packComponents] at he
        exact absurd he (by decide)

/-! ## Natural numbers -/

theorem unpack_ofNat_ne (n : Nat) : (Float.ofNat n).toModel.unpack ≠ .notANumber := by
  show (Float.ofScientific n false 0).toModel.unpack ≠ _
  unfold Float.ofScientific
  split
  · -- A small number is multiplied by the zeroth power of ten, which is one.
    have bound : 0 < Float.exactlyRepresentablePowersOfTen.size := by decide
    have first : Float.exactlyRepresentablePowersOfTen[0] = .ofBits 0x3FF0000000000000 := rfl
    have one : (Float.ofBits 0x3FF0000000000000).toModel.unpack =
        .finite .positive (2 ^ 52) (-52) (by decide) := rfl
    refine unpack_pack_ne (x := UnpackedFloat.mul _ _
      Float.exactlyRepresentablePowersOfTen[0].toModel.unpack) ?_
    rw [first, one]
    exact mul_ne _ (unpack_pack_ne (ofNat_ne _ _)) _ _ _ _
  · exact unpack_pack_ne (ofScientific_ne _ n (Int.le_refl 0))

/-- The number of a natural number is equal to itself. -/
theorem ofNat_beq_self (n : Nat) : (ofNat n == ofNat n) = true := by
  show (Float.ofNat n).toModel.unpack.beq (Float.ofNat n).toModel.unpack = true
  rw [UnpackedFloat.beq, compare_self (unpack_ofNat_ne n)]
  rfl

end Dialogue.Value
