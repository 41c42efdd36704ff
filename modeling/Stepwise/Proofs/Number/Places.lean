import Stepwise.Proofs.Number.ExactValue
import Stepwise.Proofs.Number.Rounding

namespace Stepwise

open Binary64

/-- No integer is nearer to a rational number; halfway between two, it is the one farther from
zero. -/
structure IsNearestInteger (q : ℚ) (n : ℤ) : Prop where
  nearest : ∀ m : ℤ, |q - n| ≤ |q - m|
  away : ∀ m : ℤ, |q - m| = |q - n| → |m| ≤ |n|

/-- No finite number is nearer to a rational number, which is not so large that it overflows;
halfway between two, it is the one whose last digit is zero. A zero has no sign. -/
structure IsNearestDouble (q : ℚ) (w : Float) : Prop where
  in_range : |q| < 2 ^ 1024 - 2 ^ 970
  isFinite : w.isFinite = true
  nearest : ∀ u : Float, u.isFinite = true → |q - exactValue w| ≤ |q - exactValue u|
  even : ∀ u : Float, u.isFinite = true → |q - exactValue u| = |q - exactValue w| →
    exactValue u ≠ exactValue w → index w % 2 = 0
  unsigned_zero : exactValue w = 0 → isNegative w = false

section Unique

/-- Two values of the same size that are equally near to a rational number lie on either side of
zero only if the number is zero itself, and then zero is nearer. -/
theorem eq_of_abs_eq {q x y : ℚ} (hsize : |x| = |y|) (htie : |q - x| = |q - y|)
    (hzero : |q - y| ≤ |q - 0|) : x = y := by
  obtain rfl | rfl := abs_eq_abs.mp hsize
  · rfl
  · obtain h | h := abs_eq_abs.mp htie
    · linarith
    · have hq : q = 0 := by linarith
      rw [hq, sub_zero, zero_sub, abs_zero, abs_neg] at hzero
      rw [abs_nonpos_iff.mp hzero, neg_zero]

theorem IsNearestInteger.unique {q : ℚ} {m n : ℤ} (hm : IsNearestInteger q m)
    (hn : IsNearestInteger q n) : m = n := by
  have htie : |q - m| = |q - n| := le_antisymm (hm.nearest n) (hn.nearest m)
  have hsize : |m| = |n| := le_antisymm (hn.away m htie) (hm.away n htie.symm)
  have hsize' : |(m : ℚ)| = |(n : ℚ)| := by rw [← Int.cast_abs, hsize, Int.cast_abs]
  have hzero := hn.nearest 0
  rw [Int.cast_zero] at hzero
  exact Int.cast_inj.mp (eq_of_abs_eq hsize' htie hzero)

theorem abs_sub_lt_of_between {q a b c : ℚ} (h : |q - a| = |q - b|) (hac : a < c) (hcb : c < b) :
    |q - c| < |q - a| := by
  have hq : 2 * q = a + b := by
    obtain h | h := abs_eq_abs.mp h <;> linarith
  have hpos : 0 < q - a := by linarith
  rw [abs_of_pos hpos, abs_lt]
  constructor <;> linarith

variable {q : ℚ} {w w' : Float}

theorem exists_exactValue_between (hw : w.isFinite = true) (hw' : w'.isFinite = true)
    (h : position w + 1 < position w') :
    ∃ u : Float, u.isFinite = true ∧
      exactValue w < exactValue u ∧ exactValue u < exactValue w' := by
  have hindex := isFinite_iff.mp hw
  have hindex' := isFinite_iff.mp hw'
  have hsize := natAbs_position w
  have hsize' := natAbs_position w'
  have hbetween : (position w + 1).natAbs < infinity := by omega
  obtain ⟨u, hu, hposition⟩ := exists_of_position hbetween
  refine ⟨u, hu, ?_, ?_⟩ <;> rw [exactValue_lt_iff, hposition]
  · exact lt_add_one _
  · exact h

/-- Between two numbers whose last digits are zero there is another one, so a quotient is not
halfway between them. -/
theorem IsNearestDouble.not_lt (h : IsNearestDouble q w) (h' : IsNearestDouble q w') :
    ¬exactValue w < exactValue w' := by
  intro hlt
  have htie : |q - exactValue w| = |q - exactValue w'| :=
    le_antisymm (h.nearest w' h'.isFinite) (h'.nearest w h.isFinite)
  have heven := h.even w' h'.isFinite htie.symm hlt.ne'
  have heven' := h'.even w h.isFinite htie hlt.ne
  have hsize := natAbs_position w
  have hsize' := natAbs_position w'
  have hstep : position w + 1 < position w' := by
    have := exactValue_lt_iff.mp hlt
    omega
  obtain ⟨u, hu, hwu, huw'⟩ := exists_exactValue_between h.isFinite h'.isFinite hstep
  exact (abs_sub_lt_of_between htie hwu huw').not_ge (h.nearest u hu)

theorem IsNearestDouble.unique (h : IsNearestDouble q w) (h' : IsNearestDouble q w') : w = w' := by
  have hvalue : exactValue w = exactValue w' :=
    le_antisymm (le_of_not_gt (h'.not_lt h)) (le_of_not_gt (h.not_lt h'))
  have hposition := exactValue_eq_iff.mp hvalue
  have hsize := natAbs_position w
  have hsize' := natAbs_position w'
  have hindex : index w = index w' := by omega
  refine eq_of_index_eq ?_ hindex
  by_cases hzero : index w = 0
  · have hw := exactValue_eq_zero_iff.mpr hzero
    rw [h.unsigned_zero hw, h'.unsigned_zero (hvalue ▸ hw)]
  · rw [position, position, ← hindex] at hposition
    exact eq_of_withSign_eq hzero hposition

end Unique

section Integer

theorem isNearestInteger_of_half {q : ℚ} {n : ℤ} (h0 : 0 ≤ q) (hlower : n - 1 / 2 ≤ q)
    (hupper : q < n + 1 / 2) : IsNearestInteger q n := by
  have hhalf : |q - n| ≤ 1 / 2 := abs_le.mpr ⟨by linarith, by linarith⟩
  have habove (m : ℤ) (hm : n < m) : 1 / 2 < |q - m| := by
    have : (n : ℚ) + 1 ≤ m := by exact_mod_cast hm
    rw [abs_sub_comm]
    exact lt_of_lt_of_le (by linarith) (le_abs_self _)
  constructor
  · intro m
    obtain hm | rfl | hm := lt_trichotomy m n
    · have : (m : ℚ) + 1 ≤ n := by exact_mod_cast hm
      exact hhalf.trans (le_trans (by linarith) (le_abs_self _))
    · exact le_refl _
    · exact hhalf.trans (habove m hm).le
  · intro m htie
    have hm : m ≤ n := by
      by_contra h
      exact absurd (habove m (not_le.mp h)) (not_lt.mpr (htie.trans_le hhalf))
    have hm0 : 0 ≤ m := by
      have hle := (abs_le.mp (htie.trans_le hhalf)).2
      have : (-1 : ℚ) < m := by linarith
      have : (-1 : ℤ) < m := by exact_mod_cast this
      omega
    rwa [abs_of_nonneg hm0, abs_of_nonneg (hm0.trans hm)]

theorem IsNearestInteger.neg {q : ℚ} {n : ℤ} (h : IsNearestInteger q n) :
    IsNearestInteger (-q) (-n) := by
  have hflip (m : ℤ) : |-q - m| = |q - (-m : ℤ)| := by
    rw [← abs_neg]
    push_cast
    ring_nf
  constructor
  · intro m
    rw [hflip, hflip, neg_neg]
    exact h.nearest (-m)
  · intro m htie
    rw [hflip, hflip, neg_neg] at htie
    rw [abs_neg, ← abs_neg m]
    exact h.away (-m) htie

theorem exactValue_mul_pow (v : Float) (places : ℕ) :
    exactValue v * 10 ^ places = withSign (isNegative v) (units (index v) * 10 ^ places) / one := by
  rw [exactValue]
  cases isNegative v <;> simp only [withSign_false, withSign_true] <;> push_cast <;> ring

theorem isNearestInteger_div {a d n : ℕ} (hd : 0 < d) (hlower : 2 * (n * d) ≤ 2 * a + d)
    (hupper : 2 * a < 2 * (n * d) + d) : IsNearestInteger (a / d : ℚ) (n : ℤ) := by
  have hpos : (0 : ℚ) < d := Nat.cast_pos.mpr hd
  have hlower' : (2 * (n * d) : ℚ) ≤ 2 * a + d := by exact_mod_cast hlower
  have hupper' : (2 * a : ℚ) < 2 * (n * d) + d := by exact_mod_cast hupper
  apply isNearestInteger_of_half
  · positivity
  · rw [le_div_iff₀ hpos]
    push_cast
    linarith
  · rw [div_lt_iff₀ hpos]
    push_cast
    linarith

theorem isNearestInteger_wholePlaces (places : ℕ) (v : Float) :
    IsNearestInteger (exactValue v * 10 ^ places)
      (withSign (isNegative v) (wholePlaces places (index v))) := by
  obtain ⟨hlower, hupper⟩ := wholePlaces_eq_iff.mp (Eq.refl (wholePlaces places (index v)))
  have hsize := isNearestInteger_div Binary64.one_pos hlower hupper
  rw [exactValue_mul_pow]
  cases isNegative v with
  | false =>
    rw [withSign_false, withSign_false, Int.cast_natCast]
    exact hsize
  | true =>
    rw [withSign_true, withSign_true, Int.cast_neg, Int.cast_natCast, neg_div]
    exact hsize.neg

end Integer

section Double

theorem abs_div_sub_units (num k : ℕ) {den : ℕ} (hden : 0 < den) :
    |(num / den : ℚ) - units k / one| = distance num den k / (den * one) := by
  have hden' : (0 : ℚ) < den := Nat.cast_pos.mpr hden
  have hone := one_pos_rat
  rw [div_sub_div _ _ hden'.ne' hone.ne', abs_div, abs_of_pos (mul_pos hden' hone), distance,
    Nat.cast_natAbs, abs_sub_comm]
  push_cast
  ring_nf

theorem abs_sub_le_of_signs (s t : Bool) (k l : ℕ) (a b : ℕ) :
    |(k / a : ℚ) - l / b| ≤ |(withSign s k / a : ℚ) - withSign t l / b| := by
  have hk : (0 : ℚ) ≤ k / a := by positivity
  have hl : (0 : ℚ) ≤ l / b := by positivity
  have hsum : |(k / a : ℚ) - l / b| ≤ k / a + l / b :=
    abs_le.mpr ⟨by linarith, by linarith⟩
  cases s <;> cases t <;>
    simp only [withSign_false, withSign_true, Int.cast_neg, Int.cast_natCast, neg_div]
  · exact le_refl _
  · rw [sub_neg_eq_add]
    exact hsum.trans (le_abs_self _)
  · rw [← neg_add', abs_neg]
    exact hsum.trans (le_abs_self _)
  · rw [neg_sub_neg, abs_sub_comm]

theorem abs_sub_same_sign (s : Bool) (k l : ℕ) (a b : ℕ) :
    |(withSign s k / a : ℚ) - withSign s l / b| = |(k / a : ℚ) - l / b| := by
  cases s <;> simp only [withSign_false, withSign_true, Int.cast_neg, Int.cast_natCast, neg_div]
  rw [neg_sub_neg, abs_sub_comm]

section Distance

variable (s : Bool) {num den k : ℕ} (hden : 0 < den)
include hden

theorem abs_sub_exactValue_ofIndex (hk : k ≤ infinity) :
    |(withSign s num / den : ℚ) - exactValue (ofIndex (s && k != 0) k)| =
      distance num den k / (den * one) := by
  rw [exactValue_ofIndex s hk, abs_sub_same_sign, abs_div_sub_units _ _ hden]

/-- A number of the other sign lies farther off. -/
theorem distance_le_abs_sub_exactValue (u : Float) :
    (distance num den (index u) / (den * one) : ℚ) ≤
      |(withSign s num / den : ℚ) - exactValue u| := by
  rw [← abs_div_sub_units _ _ hden]
  exact abs_sub_le_of_signs _ _ _ _ _ _

theorem distance_le_iff (num k l : ℕ) :
    (distance num den k / (den * one) : ℚ) ≤ distance num den l / (den * one) ↔
      distance num den k ≤ distance num den l := by
  have hscale : (0 : ℚ) < den * one := mul_pos (Nat.cast_pos.mpr hden) one_pos_rat
  rw [div_le_div_iff_of_pos_right hscale, Nat.cast_le]

/-- One rounding of a quotient of natural numbers gives the nearest number with either sign. -/
theorem isNearestDouble_nearest (hrange : (num / den : ℚ) < 2 ^ 1024 - 2 ^ 970)
    (hfinite : nearest num den < infinity) :
    IsNearestDouble (withSign s num / den)
      (ofIndex (s && nearest num den != 0) (nearest num den)) := by
  have hmin := distance_nearest_le hden hfinite
  have heven (l : ℕ) := @nearest_even_of_distance_eq num den l hden hfinite
  generalize nearest num den = k at hfinite hmin heven ⊢
  have hdistance := @abs_sub_exactValue_ofIndex s num den k hden hfinite.le
  have hindex := index_ofIndex (s && k != 0) hfinite.le
  have hsign := isNegative_ofIndex (s && k != 0) hfinite.le
  generalize ofIndex (s && k != 0) k = w at hdistance hindex hsign ⊢
  have hnearest (u : Float) : |(withSign s num / den : ℚ) - exactValue w| ≤
      |(withSign s num / den : ℚ) - exactValue u| := by
    rw [hdistance]
    apply le_trans _ (distance_le_abs_sub_exactValue s hden u)
    exact (distance_le_iff hden num _ _).mpr (hmin (index u))
  constructor
  · rwa [abs_div, Nat.abs_cast, ← Int.cast_abs, Int.abs_eq_natAbs, natAbs_withSign,
      Int.cast_natCast]
  · rwa [isFinite_iff, hindex]
  · exact fun u _ => hnearest u
  · intro u _ htie hne
    rw [hindex]
    apply heven (index u)
    · intro hsame
      have hsize : |exactValue u| = |exactValue w| := by
        rw [abs_exactValue, abs_exactValue, hsame, hindex]
      have hzero := hnearest (ofIndex false 0)
      rw [exactValue_eq_zero_iff.mpr (index_ofIndex false (Nat.zero_le _))] at hzero
      exact hne (eq_of_abs_eq hsize htie hzero)
    · have hle := (distance_le_abs_sub_exactValue s hden u).trans_eq (htie.trans hdistance)
      exact le_antisymm ((distance_le_iff hden num _ _).mp hle) (hmin (index u))
  · intro h0
    rw [exactValue_eq_zero_iff, hindex] at h0
    rw [hsign, h0, bne_self_eq_false, Bool.and_false]

end Distance

end Double

section Exactly

/-- The index of the number nearest to a number rounded to so many places. -/
def roundedIndex (places k : ℕ) : ℕ :=
  nearest (wholePlaces places k) (10 ^ places)

/-- Rounding that treats large numbers like all others. -/
def roundExactly (places : ℕ) (v : Float) : Float :=
  ofIndex (isNegative v && roundedIndex places (index v) != 0) (roundedIndex places (index v))

theorem exists_units_eq_mul_one {k : ℕ} (hk : firstIntegral ≤ k) :
    ∃ e, scale k = e + Binary64.places ∧ units k = significand k * 2 ^ e * one := by
  have hscale : Binary64.places ≤ scale k := not_lt.mp (mt scale_lt_places_iff.mp (not_lt.mpr hk))
  obtain ⟨e, he⟩ := Nat.exists_eq_add_of_le' hscale
  refine ⟨e, he, ?_⟩
  rw [units, he, one, Nat.pow_add, Nat.mul_assoc]

theorem wholePlaces_of_eq_mul_one {k m : ℕ} (places : ℕ) (hm : units k = m * one) :
    wholePlaces places k = m * 10 ^ places := by
  have hpos := Binary64.one_pos
  rw [wholePlaces_eq_iff, hm, Nat.mul_right_comm]
  generalize m * 10 ^ places * one = a
  omega

/-- An integer is not changed. -/
theorem roundedIndex_of_eq_mul_one {k m : ℕ} (places : ℕ) (hm : units k = m * one)
    (hle : k ≤ infinity) : roundedIndex places k = k := by
  calc roundedIndex places k = nearest (m * 10 ^ places) (1 * 10 ^ places) := by
        rw [roundedIndex, wholePlaces_of_eq_mul_one places hm, Nat.one_mul]
    _ = nearest m 1 := nearest_mul_right m 1 (Nat.pow_pos (by decide))
    _ = nearest (m * one) (1 * one) := (nearest_mul_right m 1 Binary64.one_pos).symm
    _ = nearest (units k) one := by rw [hm, Nat.one_mul]
    _ = k := nearest_units hle

theorem roundedIndex_of_integral {k : ℕ} (places : ℕ) (hk : firstIntegral ≤ k)
    (hle : k ≤ infinity) : roundedIndex places k = k := by
  obtain ⟨e, -, hm⟩ := exists_units_eq_mul_one hk
  exact roundedIndex_of_eq_mul_one places hm hle

theorem roundedIndex_lt_infinity {k : ℕ} (places : ℕ) (hk : k < infinity) :
    roundedIndex places k < infinity := by
  by_cases h : firstIntegral ≤ k
  · rwa [roundedIndex_of_integral places h hk.le]
  · exact nearest_wholePlaces_lt_infinity (not_le.mp h) places

theorem wholePlaces_monotone (places : ℕ) : Monotone (wholePlaces places) := by
  intro k l h
  apply Nat.div_le_div_right
  apply Nat.add_le_add_right
  exact Nat.mul_le_mul_right _ (Nat.mul_le_mul_left 2 (units_strictMono.monotone h))

theorem roundedIndex_monotone (places : ℕ) : Monotone (roundedIndex places) :=
  fun _ _ h => nearest_mono (Nat.pow_pos (by decide)) (wholePlaces_monotone places h)

theorem units_zero_eq_mul_one : units 0 = 0 * one := by
  rw [units_zero, Nat.zero_mul]

theorem wholePlaces_zero (places : ℕ) : wholePlaces places 0 = 0 := by
  rw [wholePlaces_of_eq_mul_one places units_zero_eq_mul_one, Nat.zero_mul]

theorem roundedIndex_zero (places : ℕ) : roundedIndex places 0 = 0 :=
  roundedIndex_of_eq_mul_one places units_zero_eq_mul_one (Nat.zero_le _)

/-- Every finite number is smaller than the quotients that overflow. -/
theorem significand_mul_pow_lt {k e : ℕ} (hk : k < infinity)
    (he : scale k = e + Binary64.places) :
    (significand k * 2 ^ e : ℚ) < 2 ^ 1024 - 2 ^ 970 := by
  have hsignificand : significand k ≤ 2 ^ 53 - 1 := Nat.le_sub_one_of_lt (significand_lt k)
  have hexponent : e ≤ 971 := by
    rw [scale, places_eq] at he
    rw [infinity] at hk
    omega
  have hpow : (2 : ℚ) ^ e ≤ 2 * 2 ^ 970 := by
    rw [← pow_succ']
    exact pow_le_pow_right₀ one_le_two hexponent
  have hsplit : (2 : ℚ) ^ 1024 = 2 ^ 54 * 2 ^ 970 := by rw [← pow_add]
  have hpos : (0 : ℚ) < 2 ^ 970 := pow_pos two_pos 970
  rw [hsplit]
  generalize (2 : ℚ) ^ 970 = x at hpow hpos ⊢
  calc (significand k * 2 ^ e : ℚ) ≤ (2 ^ 53 - 1 : ℕ) * (2 * x) :=
        mul_le_mul (Nat.cast_le.mpr hsignificand) hpow (pow_nonneg zero_le_two e)
          (Nat.cast_nonneg _)
    _ < 2 ^ 54 * x - x := by
        norm_num
        linarith

/-- Rounding to places stays below the quotients that are too large for a finite number. -/
theorem wholePlaces_in_range (places : ℕ) {k : ℕ} (hk : k < infinity) :
    (wholePlaces places k / (10 ^ places : ℕ) : ℚ) < 2 ^ 1024 - 2 ^ 970 := by
  have hpos : (0 : ℚ) < (10 ^ places : ℕ) := Nat.cast_pos.mpr (Nat.pow_pos (by decide))
  rw [div_lt_iff₀ hpos]
  by_cases h : firstIntegral ≤ k
  · obtain ⟨e, he, hm⟩ := exists_units_eq_mul_one h
    rw [wholePlaces_of_eq_mul_one places hm]
    push_cast
    exact mul_lt_mul_of_pos_right (significand_mul_pow_lt hk he) (by positivity)
  · have hle : (wholePlaces places k : ℚ) ≤ (10 ^ places * 2 ^ 53 : ℕ) :=
      Nat.cast_le.mpr (wholePlaces_le (not_le.mp h) places)
    have hpow : (2 : ℚ) ^ 53 < 2 ^ 1024 - 2 ^ 970 := by
      rw [lt_sub_iff_add_lt]
      calc (2 : ℚ) ^ 53 + 2 ^ 970 < 2 ^ 970 + 2 ^ 970 :=
            add_lt_add_left (pow_lt_pow_right₀ one_lt_two (by decide)) _
        _ = 2 ^ 971 := by rw [← two_mul, ← pow_succ']
        _ ≤ 2 ^ 1024 := pow_le_pow_right₀ one_le_two (by decide)
    refine lt_of_le_of_lt hle ?_
    rw [Nat.cast_mul, mul_comm]
    apply mul_lt_mul_of_pos_right _ hpos
    exact_mod_cast hpow

/-- Large numbers are not treated otherwise than the rounding of their exact value would. -/
theorem roundPlaces_eq_roundExactly (places : ℕ) {v : Float} (hv : v.isFinite = true) :
    roundPlaces places v = roundExactly places v := by
  have hle := index_le_infinity hv
  by_cases h : firstIntegral ≤ index v
  · have hne : index v ≠ 0 := Nat.ne_of_gt (lt_of_lt_of_le (by decide) h)
    have hself : roundPlaces places v = v := if_pos h
    rw [hself, roundExactly, roundedIndex_of_integral places h hle, bne_iff_ne.mpr hne,
      Bool.and_true, ofIndex_index hle]
  · exact if_neg h

section Fields

variable (places : ℕ) {v : Float} (hv : v.isFinite = true)
include hv

theorem index_roundPlaces : index (roundPlaces places v) = roundedIndex places (index v) := by
  rw [roundPlaces_eq_roundExactly places hv, roundExactly,
    index_ofIndex _ (roundedIndex_lt_infinity places (isFinite_iff.mp hv)).le]

theorem isNegative_roundPlaces : isNegative (roundPlaces places v) =
    (isNegative v && roundedIndex places (index v) != 0) := by
  rw [roundPlaces_eq_roundExactly places hv, roundExactly,
    isNegative_ofIndex _ (roundedIndex_lt_infinity places (isFinite_iff.mp hv)).le]

theorem position_roundPlaces : position (roundPlaces places v) =
    withSign (isNegative v) (roundedIndex places (index v)) := by
  rw [position, index_roundPlaces places hv, isNegative_roundPlaces places hv]
  exact withSign_and_ne_zero id

end Fields

theorem isNearestDouble_roundPlaces (places : ℕ) {v : Float} (hv : v.isFinite = true) :
    IsNearestDouble (withSign (isNegative v) (wholePlaces places (index v)) / 10 ^ places)
      (roundPlaces places v) := by
  have hindex := isFinite_iff.mp hv
  have hnearest := isNearestDouble_nearest (isNegative v) (Nat.pow_pos (by decide))
    (wholePlaces_in_range places hindex) (roundedIndex_lt_infinity places hindex)
  rw [Nat.cast_pow, Nat.cast_ofNat] at hnearest
  rw [roundPlaces_eq_roundExactly places hv]
  exact hnearest

end Exactly

/-- Rounding gives the number nearest to the multiple that is nearest to the exact value, and large
numbers make no exception. -/
theorem roundPlaces_correct (places : ℕ) {v : Float} (hv : v.isFinite = true) :
    roundPlaces places v = roundExactly places v ∧
      ∀ w, (∃ n : ℤ, IsNearestInteger (exactValue v * 10 ^ places) n ∧
        IsNearestDouble (n / 10 ^ places) w) ↔ w = roundPlaces places v := by
  refine ⟨roundPlaces_eq_roundExactly places hv, fun w => ?_⟩
  have hinteger := isNearestInteger_wholePlaces places v
  have hdouble := isNearestDouble_roundPlaces places hv
  constructor
  · rintro ⟨n, hn, hw⟩
    rw [hn.unique hinteger] at hw
    exact hw.unique hdouble
  · rintro rfl
    exact ⟨_, hinteger, hdouble⟩

/-- Minus an eighth lies halfway between two hundredths, and goes to the one below. -/
theorem roundPlaces_eighth :
    roundPlaces 2 (-0.125) = roundExactly 2 (-0.125) ∧
      ∀ w, (∃ n : ℤ, IsNearestInteger (exactValue (-0.125) * 10 ^ 2) n ∧
        IsNearestDouble (n / 10 ^ 2) w) ↔ w = -0.13 := by
  have hrounded : roundPlaces 2 (-0.125) = -0.13 := by decide +kernel
  obtain ⟨hexactly, hcorrect⟩ := @roundPlaces_correct 2 (-0.125) (by decide +kernel)
  rw [hrounded] at hcorrect
  exact ⟨hexactly, hcorrect⟩

theorem wholePlaces_roundedIndex (places : ℕ) {k : ℕ} (hk : k ≤ infinity) :
    wholePlaces places (roundedIndex places k) = wholePlaces places k := by
  by_cases h : firstIntegral ≤ k
  · rw [roundedIndex_of_integral places h hk]
  · exact wholePlaces_nearest (not_le.mp h) places

/-- The multiple nearest to a rounded number is the one to which it was rounded. -/
theorem isNearestInteger_roundPlaces (places : ℕ) {v : Float} (hv : v.isFinite = true) :
    IsNearestInteger (exactValue (roundPlaces places v) * 10 ^ places)
      (withSign (isNegative v) (wholePlaces places (index v))) := by
  have hwhole := wholePlaces_roundedIndex places (index_le_infinity hv)
  have hzero : roundedIndex places (index v) = 0 → wholePlaces places (index v) = 0 := by
    intro h0
    rw [← hwhole, h0, wholePlaces_zero]
  have hnearest := isNearestInteger_wholePlaces places (roundPlaces places v)
  rwa [index_roundPlaces places hv, isNegative_roundPlaces places hv, hwhole,
    withSign_and_ne_zero hzero] at hnearest

/-- A rounded number, though not a multiple itself, is nearest to the multiple that it stands for,
and so it is not changed again. -/
theorem roundPlaces_idempotent (places : ℕ) {v : Float} (hv : v.isFinite = true) :
    (∃ n : ℤ, IsNearestInteger (exactValue v * 10 ^ places) n ∧
      IsNearestInteger (exactValue (roundPlaces places v) * 10 ^ places) n) ∧
    (roundPlaces places (roundPlaces places v)).toBits = (roundPlaces places v).toBits := by
  constructor
  · exact ⟨_, isNearestInteger_wholePlaces places v, isNearestInteger_roundPlaces places hv⟩
  · rw [roundPlaces_roundPlaces]

/-- The last number that is not an integer is rounded to the first that is treated as one. -/
theorem roundPlaces_last_half :
    (∃ n : ℤ, IsNearestInteger (exactValue 4503599627370495.5 * 10 ^ 0) n ∧
      IsNearestInteger (exactValue 4503599627370496 * 10 ^ 0) n) ∧
    (roundPlaces 0 4503599627370496).toBits = (4503599627370496 : Float).toBits := by
  have hrounded : roundPlaces 0 4503599627370495.5 = 4503599627370496 := by decide +kernel
  have hidempotent := @roundPlaces_idempotent 0 4503599627370495.5 (by decide +kernel)
  rwa [hrounded] at hidempotent

/-- Rounding keeps the order of the numbers, also where large numbers begin, and it treats both
signs alike. -/
theorem roundPlaces_monotone_and_odd (places : ℕ) :
    (∀ v w : Float, v.isFinite = true → w.isFinite = true → v ≤ w →
      roundPlaces places v ≤ roundPlaces places w) ∧
    ∀ v : Float, v.isFinite = true →
      (roundPlaces places (-v) == -roundPlaces places v) = true := by
  constructor
  · intro v w hv hw h
    rw [le_iff_exactValue_le hv hw, exactValue_le_iff] at h
    rw [le_iff_exactValue_le (roundPlaces_spec places hv).1 (roundPlaces_spec places hw).1,
      exactValue_le_iff, position_roundPlaces places hv, position_roundPlaces places hw]
    exact withSign_le_of_monotone (roundedIndex_monotone places) (roundedIndex_zero places) h
  · intro v hv
    have hneg := isFinite_neg hv
    have hrounded := (roundPlaces_spec places hv).1
    have hrounded' := (roundPlaces_spec places hneg).1
    rw [beq_iff_exactValue_eq hrounded' (isFinite_neg hrounded), exactValue_eq_iff,
      position_neg (index_le_infinity hrounded), position_roundPlaces places hneg,
      position_roundPlaces places hv, index_neg (index_le_infinity hv),
      isNegative_neg (index_le_infinity hv), withSign_not]

/-- The last number that is rounded stays below the first one that is not. -/
theorem roundPlaces_monotone_and_odd_at_limit :
    roundPlaces 0 4503599627370495.5 ≤ roundPlaces 0 4503599627370496 ∧
      (roundPlaces 0 (-4503599627370495.5) == -roundPlaces 0 4503599627370495.5) = true :=
  ⟨(roundPlaces_monotone_and_odd 0).1 _ _ (by decide +kernel) (by decide +kernel)
    (by decide +kernel), (roundPlaces_monotone_and_odd 0).2 _ (by decide +kernel)⟩

end Stepwise
