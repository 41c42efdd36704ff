import Mathlib
import Stepwise.Proofs.Number.Bits
import Stepwise.Proofs.Number.Nearest

namespace Stepwise.Binary64

open Float.Model Float.Model.UnpackedFloat

def withSign (negative : Bool) (k : ℕ) : ℤ :=
  if negative then -k else k

/-- The place of a number in the list of all numbers, where both zeros stand in the middle. -/
def position (v : Float) : ℤ :=
  withSign (isNegative v) (index v)

/-- The value of a finite number. -/
def exactValue (v : Float) : ℚ :=
  withSign (isNegative v) (units (index v)) / one

section Signs

variable {f : ℕ → ℕ} {s t : Bool} {k l : ℕ}

theorem withSign_false (k : ℕ) : withSign false k = k := rfl

theorem withSign_true (k : ℕ) : withSign true k = -k := rfl

theorem withSign_le_of_monotone (hf : Monotone f) (h0 : f 0 = 0)
    (h : withSign s k ≤ withSign t l) : withSign s (f k) ≤ withSign t (f l) := by
  cases s <;> cases t <;> simp only [withSign_false, withSign_true] at h ⊢
  · have := hf (show k ≤ l by omega)
    omega
  · obtain ⟨rfl, rfl⟩ : k = 0 ∧ l = 0 := by omega
    omega
  · omega
  · have := hf (show l ≤ k by omega)
    omega

theorem withSign_le_iff (hf : StrictMono f) (h0 : f 0 = 0) :
    withSign s (f k) ≤ withSign t (f l) ↔ withSign s k ≤ withSign t l := by
  refine ⟨fun h => ?_, withSign_le_of_monotone hf.monotone h0⟩
  have hkl : f k ≤ f l ↔ k ≤ l := hf.le_iff_le
  have hlk : f l ≤ f k ↔ l ≤ k := hf.le_iff_le
  have hk : f k = 0 ↔ k = 0 := by rw [← h0, hf.injective.eq_iff, h0]
  have hl : f l = 0 ↔ l = 0 := by rw [← h0, hf.injective.eq_iff, h0]
  cases s <;> cases t <;> simp only [withSign_false, withSign_true] at h ⊢ <;>
    omega

theorem withSign_zero (s : Bool) : withSign s 0 = 0 := by
  cases s <;> rfl

/-- The sign of a zero does not matter. -/
theorem withSign_and_ne_zero (h : k = 0 → l = 0) : withSign (s && k != 0) l = withSign s l := by
  by_cases hk : k = 0
  · rw [h hk, withSign_zero, withSign_zero]
  · rw [bne_iff_ne.mpr hk, Bool.and_true]

theorem withSign_true_lt_zero (hk : k ≠ 0) : withSign true k < 0 := by
  rw [withSign_true]
  omega

theorem withSign_false_pos (hk : k ≠ 0) : 0 < withSign false k := by
  rw [withSign_false]
  omega

theorem withSign_not (s : Bool) (k : ℕ) : withSign (!s) k = -withSign s k := by
  cases s <;> simp [withSign_false, withSign_true]

theorem eq_of_withSign_eq (hk : k ≠ 0) (h : withSign s k = withSign t k) : s = t := by
  cases s <;> cases t <;> simp only [withSign_false, withSign_true] at h ⊢ <;> omega

theorem natAbs_withSign (s : Bool) (k : ℕ) : (withSign s k).natAbs = k := by
  cases s <;> simp [withSign_false, withSign_true]

end Signs

theorem units_zero : units 0 = 0 := rfl

theorem one_pos_rat : (0 : ℚ) < one :=
  Nat.cast_pos.mpr one_pos

variable {v w : Float}

theorem natAbs_position (v : Float) : (position v).natAbs = index v :=
  natAbs_withSign _ _

theorem exactValue_le_iff : exactValue v ≤ exactValue w ↔ position v ≤ position w := by
  rw [exactValue, exactValue, div_le_div_iff_of_pos_right one_pos_rat, Int.cast_le,
    withSign_le_iff units_strictMono units_zero]
  rfl

theorem position_neg (h : index v ≤ infinity) : position (-v) = -position v := by
  rw [position, position, index_neg h, isNegative_neg h, withSign_not]

theorem exactValue_lt_iff : exactValue v < exactValue w ↔ position v < position w := by
  rw [← not_le, ← not_le, exactValue_le_iff]

theorem exactValue_eq_iff : exactValue v = exactValue w ↔ position v = position w := by
  rw [le_antisymm_iff, le_antisymm_iff, exactValue_le_iff, exactValue_le_iff]

theorem exactValue_eq_zero_iff : exactValue v = 0 ↔ index v = 0 := by
  have hzero : exactValue v = 0 ↔ units (index v) = 0 := by
    rw [exactValue, div_eq_zero_iff, or_iff_left one_pos_rat.ne', Int.cast_eq_zero,
      ← Int.natAbs_eq_zero, natAbs_withSign]
  rw [hzero]
  constructor
  · exact fun h => units_strictMono.injective (h.trans units_zero.symm)
  · intro h
    rw [h, units_zero]

theorem abs_exactValue (v : Float) : |exactValue v| = units (index v) / one := by
  rw [exactValue, abs_div, abs_of_pos one_pos_rat, ← Int.cast_abs, Int.abs_eq_natAbs,
    natAbs_withSign, Int.cast_natCast]

theorem exactValue_ofIndex (s : Bool) {k : ℕ} (hk : k ≤ infinity) :
    exactValue (ofIndex (s && k != 0) k) = withSign s (units k) / one := by
  have hzero : k = 0 → units k = 0 := by
    rintro rfl
    exact units_zero
  rw [exactValue, index_ofIndex _ hk, isNegative_ofIndex _ hk, withSign_and_ne_zero hzero]

theorem exists_of_position {i : ℤ} (hi : i.natAbs < infinity) :
    ∃ u : Float, u.isFinite = true ∧ position u = i := by
  refine ⟨ofIndex (decide (i < 0)) i.natAbs, ?_, ?_⟩
  · rwa [isFinite_iff, index_ofIndex _ hi.le]
  · rw [position, index_ofIndex _ hi.le, isNegative_ofIndex _ hi.le]
    by_cases h : i < 0 <;> simp only [h, decide_true, decide_false, withSign_false,
      withSign_true] <;> omega

section Compare

theorem compare_congr {α β : Type} [LinearOrder α] [LinearOrder β] {a b : α} {x y : β}
    (hlt : a < b ↔ x < y) (heq : a = b ↔ x = y) : compare a b = compare x y := by
  simp only [LinearOrder.compare_eq_compareOfLessAndEq, compareOfLessAndEq, hlt, heq]

/-- Scales are compared first, then significands. -/
theorem compare_scale_then (k l : ℕ) :
    (compare ((scale k : ℤ) - 1074) ((scale l : ℤ) - 1074)).then
      (compare (significand k) (significand l)) = compare k l := by
  have hk := scale_mul_add_significand k
  have hl := scale_mul_add_significand l
  have hmono : scale k < scale l → k < l := by
    unfold scale
    omega
  have hmono' : scale l < scale k → l < k := by
    unfold scale
    omega
  obtain h | h | h := lt_trichotomy (scale k) (scale l)
  · have hscale : compare ((scale k : ℤ) - 1074) ((scale l : ℤ) - 1074) = .lt :=
      compare_lt_iff_lt.mpr (by omega)
    rw [hscale, compare_lt_iff_lt.mpr (hmono h)]
    rfl
  · rw [h, compare_eq_iff_eq.mpr rfl]
    apply compare_congr <;> omega
  · have hscale : compare ((scale k : ℤ) - 1074) ((scale l : ℤ) - 1074) = .gt :=
      compare_gt_iff_gt.mpr (by omega)
    rw [hscale, compare_gt_iff_gt.mpr (hmono' h)]
    rfl

theorem compare_swap_withSign (k l : ℕ) :
    (compare k l).swap = compare (withSign true k) (withSign true l) := by
  rw [← Std.OrientedCmp.eq_swap]
  apply compare_congr <;> simp only [withSign_true] <;> omega

theorem compare_withSign (k l : ℕ) :
    compare k l = compare (withSign false k) (withSign false l) := by
  apply compare_congr <;> simp only [withSign_false] <;> omega

/-- Finite numbers compare as their positions do. -/
theorem compare_eq (hv : v.isFinite = true) (hw : w.isFinite = true) :
    v.toModel.unpack.compare w.toModel.unpack = some (compare (position v) (position w)) := by
  simp only [position, isNegative_eq]
  obtain ⟨hv0, hv⟩ | ⟨hv0, m, e, hm, rfl, rfl, hv⟩ := unpack_eq (isFinite_iff.mp hv) <;>
    obtain ⟨hw0, hw⟩ | ⟨hw0, n, d, hn, rfl, rfl, hw⟩ := unpack_eq (isFinite_iff.mp hw) <;>
    rw [hv, hw] <;> generalize signOf v.toBits.toBitVec = s <;>
    generalize signOf w.toBits.toBitVec = t
  · rw [hv0, hw0, withSign_zero, withSign_zero]
    rfl
  · rw [hv0, withSign_zero]
    cases t with
    | negative => exact congrArg some (compare_gt_iff_gt.mpr (withSign_true_lt_zero hw0)).symm
    | positive => exact congrArg some (compare_lt_iff_lt.mpr (withSign_false_pos hw0)).symm
  · rw [hw0, withSign_zero]
    cases s with
    | negative => exact congrArg some (compare_lt_iff_lt.mpr (withSign_true_lt_zero hv0)).symm
    | positive => exact congrArg some (compare_gt_iff_gt.mpr (withSign_false_pos hv0)).symm
  · have hthen := compare_scale_then (index v) (index w)
    cases s with
    | negative =>
      cases t with
      | negative =>
        rw [← compare_swap_withSign, ← hthen]
        rfl
      | positive =>
        have hlt := (withSign_true_lt_zero hv0).trans (withSign_false_pos hw0)
        exact congrArg some (compare_lt_iff_lt.mpr hlt).symm
    | positive =>
      cases t with
      | negative =>
        have hlt := (withSign_true_lt_zero hw0).trans (withSign_false_pos hv0)
        exact congrArg some (compare_gt_iff_gt.mpr hlt).symm
      | positive =>
        rw [← compare_withSign, ← hthen]
        rfl

theorem le_iff_exactValue_le (hv : v.isFinite = true) (hw : w.isFinite = true) :
    v ≤ w ↔ exactValue v ≤ exactValue w := by
  rw [exactValue_le_iff]
  have hle : v ≤ w ↔ ((v.toModel.unpack.compare w.toModel.unpack).any (·.isLE)) = true := by
    change Float.le v w = true ↔ _
    rw [Float.le, decide_eq_true_eq]
    rfl
  rw [hle, compare_eq hv hw, Option.any_some, Std.isLE_compare]

theorem beq_iff_exactValue_eq (hv : v.isFinite = true) (hw : w.isFinite = true) :
    (v == w) = true ↔ exactValue v = exactValue w := by
  have hbeq : (v == w) = true ↔ v.toModel.unpack.compare w.toModel.unpack = some .eq := by
    change (v.toModel.unpack.compare w.toModel.unpack == some .eq) = true ↔ _
    rw [beq_iff_eq]
  rw [hbeq, compare_eq hv hw, Option.some_inj, compare_eq_iff_eq, exactValue_eq_iff]

end Compare

end Stepwise.Binary64
