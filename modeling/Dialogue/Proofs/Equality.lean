import Dialogue.Value

/-!
# Equality of values

Structural equality is no equivalence, because a number that is not a number differs from itself.
But it is transitive, and null is equal to nothing else. What is compared with a value over and over
again, and replaced by what is equal to it, remains equal to what it was in the beginning.

## Main definitions

* `Value.Alike` — a value is another one, or is equal to it

## Main results

* `Value.beq_trans` — structural equality is transitive
* `Value.Alike.trans`, `Value.Alike.isNull_eq`
-/

namespace Dialogue.Value

open Float.Model

/-! ## Numbers -/

theorem then_compare {e e' : Int} {m m' : Nat}
    (h : (compare e e').then (compare m m') = .eq) : e = e' ∧ m = m' := by
  obtain ⟨exponents, mantissas⟩ := Ordering.then_eq_eq.1 h
  exact ⟨Std.LawfulEqCmp.eq_of_compare exponents, Std.LawfulEqCmp.eq_of_compare mantissas⟩

/-- Numbers that compare as equal are the same, or are zeros. -/
theorem eq_or_zero_of_compare {x y : UnpackedFloat} (h : x.compare y = some .eq) :
    x = y ∨ (∃ s, x = .zero s) ∧ ∃ s, y = .zero s := by
  cases x with
  | notANumber => cases h
  | zero s =>
    cases y with
    | zero t => exact .inr ⟨⟨s, rfl⟩, t, rfl⟩
    | notANumber => cases h
    | infinity t => cases t <;> cases h
    | finite t => cases t <;> cases h
  | infinity s =>
    cases y with
    | infinity t => cases s <;> cases t <;> first | exact .inl rfl | cases h
    | _ => cases s <;> cases h
  | finite s m e pos =>
    cases y with
    | notANumber => cases h
    | infinity t => cases s <;> cases t <;> cases h
    | zero t => cases s <;> cases h
    | finite t m' e' pos' =>
      -- Of the same sign, two numbers are compared by exponent and mantissa.
      have equal : (compare e e').then (compare m m') = .eq → s = t →
          UnpackedFloat.finite s m e pos = .finite t m' e' pos' := by
        rintro same rfl
        obtain ⟨rfl, rfl⟩ := then_compare same
        rfl
      cases s <;> cases t
      · exact .inl (equal (Ordering.swap_eq_eq.1 (Option.some.inj h)) rfl)
      · cases h
      · cases h
      · exact .inl (equal (Option.some.inj h) rfl)

theorem float_beq_iff {x y : Float} :
    (x == y) = true ↔ x.toModel.unpack.compare y.toModel.unpack = some .eq := by
  show (x.toModel.unpack.compare y.toModel.unpack == some .eq) = true ↔ _
  exact beq_iff_eq

theorem float_beq_trans {x y z : Float} (h : (x == y) = true) (h' : (y == z) = true) :
    (x == z) = true := by
  rw [float_beq_iff] at h h' ⊢
  rcases eq_or_zero_of_compare h with same | ⟨⟨s, zero⟩, t, zero'⟩
  · rwa [same]
  · rcases eq_or_zero_of_compare h' with same | ⟨-, u, zero''⟩
    · rwa [← same]
    · rw [zero, zero'']
      rfl

/-! ## Values -/

mutual

theorem beq_trans : ∀ {v w u : Value}, v.beq w = true → w.beq u = true → v.beq u = true
  | .null, w, u, h, h' => by
    -- Values of different kinds are not equal, so all three are of one kind.
    cases w with
    | null => exact h'
    | _ => simp [beq] at h
  | .bool a, w, u, h, h' => by
    cases w with
    | bool b =>
      obtain rfl : a = b := by simpa [beq] using h
      exact h'
    | _ => simp [beq] at h
  | .number x, w, u, h, h' => by
    cases w with
    | number y =>
      cases u with
      | number z =>
        rw [beq] at h h' ⊢
        exact float_beq_trans h h'
      | _ => simp [beq] at h'
    | _ => simp [beq] at h
  | .string s, w, u, h, h' => by
    cases w with
    | string t =>
      obtain rfl : s = t := by simpa [beq] using h
      exact h'
    | _ => simp [beq] at h
  | .list xs, w, u, h, h' => by
    cases w with
    | list ys =>
      cases u with
      | list zs =>
        rw [beq] at h h' ⊢
        exact beqItems_trans h h'
      | _ => simp [beq] at h'
    | _ => simp [beq] at h
  | .map xs, w, u, h, h' => by
    cases w with
    | map ys =>
      cases u with
      | map zs =>
        rw [beq] at h h' ⊢
        exact beqEntries_trans h h'
      | _ => simp [beq] at h'
    | _ => simp [beq] at h

theorem beqItems_trans : ∀ {xs ys zs : List Value}, beqItems xs ys = true →
    beqItems ys zs = true → beqItems xs zs = true
  | [], [], _, _, h' => h'
  | [], _ :: _, _, h, _ => by simp [beqItems] at h
  | _ :: _, [], _, h, _ => by simp [beqItems] at h
  | _ :: _, _ :: _, [], _, h' => by simp [beqItems] at h'
  | x :: xs, y :: ys, z :: zs, h, h' => by
    rw [beqItems, Bool.and_eq_true] at h h' ⊢
    exact ⟨beq_trans h.1 h'.1, beqItems_trans h.2 h'.2⟩

theorem beqEntries_trans : ∀ {xs ys zs : List (String × Value)}, beqEntries xs ys = true →
    beqEntries ys zs = true → beqEntries xs zs = true
  | [], [], _, _, h' => h'
  | [], _ :: _, _, h, _ => by simp [beqEntries] at h
  | _ :: _, [], _, h, _ => by simp [beqEntries] at h
  | _ :: _, _ :: _, [], _, h' => by simp [beqEntries] at h'
  | (k, x) :: xs, (l, y) :: ys, (m, z) :: zs, h, h' => by
    rw [beqEntries, Bool.and_eq_true, Bool.and_eq_true] at h h' ⊢
    obtain ⟨⟨keys, values⟩, rest⟩ := h
    obtain ⟨⟨keys', values'⟩, rest'⟩ := h'
    obtain rfl : k = l := beq_iff_eq.1 keys
    exact ⟨⟨keys', beq_trans values values'⟩, beqEntries_trans rest rest'⟩

end

theorem isNull_eq_of_beq {v w : Value} (h : v.beq w = true) : w.isNull = v.isNull := by
  cases v <;> cases w <;> first | rfl | simp [beq] at h

/-- A value is another one, or is equal to it. -/
def Alike (v w : Value) : Prop := w = v ∨ (v == w) = true

namespace Alike

variable {v w u : Value}

theorem refl (v : Value) : v.Alike v := .inl rfl

theorem trans (h : v.Alike w) (h' : w.Alike u) : v.Alike u := by
  rcases h with rfl | h
  · exact h'
  rcases h' with rfl | h'
  · exact .inr h
  · exact .inr (beq_trans h h')

/-- Nothing but null is like null. -/
theorem isNull_eq (h : v.Alike w) : w.isNull = v.isNull := by
  rcases h with rfl | h
  · rfl
  · exact isNull_eq_of_beq h

end Alike

end Dialogue.Value
