import Stepwise.Number.Binary64
import Mathlib.Data.Nat.Log
import Mathlib.Tactic.Ring

namespace Stepwise.Binary64

theorem divideToEven_bounds (a b : Nat) :
    a / b ≤ divideToEven a b ∧ divideToEven a b ≤ a / b + 1 := by
  simp only [divideToEven]
  split <;> omega

/-- Every other multiple of the divisor lies farther off, or as far and the nearest is even. -/
theorem divideToEven_lt_or_even (a : Nat) {b n : Nat} (hb : 0 < b) (hn : n ≠ divideToEven a b) :
    ((divideToEven a b * b : Nat) - a : Int).natAbs < ((n * b : Nat) - a : Int).natAbs ∨
      ((divideToEven a b * b : Nat) - a : Int).natAbs = ((n * b : Nat) - a : Int).natAbs ∧
        divideToEven a b % 2 = 0 := by
  have hdiv : b * (a / b) + a % b = a := Nat.div_add_mod a b
  have hmod : a % b < b := Nat.mod_lt a hb
  have hstep (m : Nat) : n < m ∧ (n + 1) * b ≤ m * b ∨ n = m ∨ m < n ∧ (m + 1) * b ≤ n * b := by
    obtain h | h | h := Nat.lt_trichotomy n m
    · exact Or.inl ⟨h, Nat.mul_le_mul_right b h⟩
    · exact Or.inr (Or.inl h)
    · exact Or.inr (Or.inr ⟨h, Nat.mul_le_mul_right b h⟩)
  have hlower := hstep (a / b)
  have hupper := hstep (a / b + 1)
  rw [Nat.mul_comm] at hdiv
  simp only [Nat.add_mul, Nat.one_mul] at hlower hupper
  simp only [divideToEven] at hn ⊢
  split at hn
  · rw [if_pos ‹_›]
    omega
  · rw [if_neg ‹_›, Nat.add_mul, Nat.one_mul]
    omega

/-- No multiple of the divisor lies nearer. -/
theorem divideToEven_nearest (a n : Nat) {b : Nat} (hb : 0 < b) :
    ((divideToEven a b * b : Nat) - a : Int).natAbs ≤ ((n * b : Nat) - a : Int).natAbs := by
  by_cases hn : n = divideToEven a b
  · rw [hn]
  · obtain h | ⟨h, -⟩ := divideToEven_lt_or_even a hb hn
    · exact Nat.le_of_lt h
    · exact Nat.le_of_eq h

theorem scale_scale_add {e m : Nat} (h : m < 2 ^ 53) (hm : e = 0 ∨ 2 ^ 52 ≤ m) :
    scale (e * 2 ^ 52 + m) = e := by
  unfold scale
  omega

theorem units_scale_add {e m : Nat} (h : m ≤ 2 ^ 53) (hm : e = 0 ∨ 2 ^ 52 ≤ m) :
    units (e * 2 ^ 52 + m) = m * 2 ^ e := by
  obtain h | rfl := Nat.lt_or_eq_of_le h
  · have hscale := scale_scale_add h hm
    have hsplit := scale_mul_add_significand (e * 2 ^ 52 + m)
    rw [hscale] at hsplit
    rw [units, hscale, Nat.add_left_cancel hsplit]
  · have hscale := scale_scale_add (e := e + 1) (m := 2 ^ 52) (by decide) (Or.inr (Nat.le_refl _))
    have hindex : e * 2 ^ 52 + 2 ^ 53 = (e + 1) * 2 ^ 52 + 2 ^ 52 := by omega
    have hsplit := scale_mul_add_significand ((e + 1) * 2 ^ 52 + 2 ^ 52)
    rw [hscale] at hsplit
    rw [hindex, units, hscale, Nat.add_left_cancel hsplit, Nat.pow_succ]
    omega

/-- The number after another one is a unit of its last place greater, also across a power of two. -/
theorem units_succ (k : Nat) : units (k + 1) = units k + 2 ^ scale k := by
  have hsplit := scale_mul_add_significand k
  have hle : significand k + 1 ≤ 2 ^ 53 := significand_lt k
  have hge : scale k = 0 ∨ 2 ^ 52 ≤ significand k + 1 := by
    unfold significand scale
    split <;> omega
  have hindex : k + 1 = scale k * 2 ^ 52 + (significand k + 1) := by omega
  rw [hindex, units_scale_add hle hge, Nat.add_mul, Nat.one_mul, units]

theorem units_strictMono : StrictMono units := by
  apply strictMono_nat_of_lt_succ
  intro k
  rw [units_succ]
  exact Nat.lt_add_of_pos_right (Nat.two_pow_pos _)

theorem units_lt (k : Nat) : units k < 2 ^ (scale k + 53) := by
  rw [Nat.add_comm, Nat.pow_add]
  exact Nat.mul_lt_mul_of_pos_right (significand_lt k) (Nat.two_pow_pos _)

/-- The scale of the number nearest to a quotient. -/
def exponent (num den : Nat) : Nat :=
  Nat.log2 (num * one / den) - 52

/-- The index nearest to a quotient if there were no greatest number. -/
def unboundedNearest (num den : Nat) : Nat :=
  exponent num den * 2 ^ 52 + divideToEven (num * one) (den * 2 ^ exponent num den)

theorem nearest_eq (num den : Nat) : nearest num den = min (unboundedNearest num den) infinity :=
  rfl

theorem nearest_eq_of_lt {num den : Nat} (h : nearest num den < infinity) :
    nearest num den = unboundedNearest num den := by
  rw [nearest_eq] at h ⊢
  omega

section Exponent

variable (num : Nat) {den : Nat} (hden : 0 < den)
include hden

theorem lt_exponent : num * one < 2 ^ 53 * (den * 2 ^ exponent num den) := by
  have hlt : num * one / den < 2 ^ (exponent num den + 53) := by
    apply Nat.lt_of_lt_of_le Nat.lt_log2_self
    apply Nat.pow_le_pow_right (by decide)
    unfold exponent
    omega
  calc num * one < 2 ^ (exponent num den + 53) * den := (Nat.div_lt_iff_lt_mul hden).mp hlt
    _ = 2 ^ 53 * (den * 2 ^ exponent num den) := by rw [Nat.pow_add]; ac_rfl

theorem exponent_le (h : exponent num den ≠ 0) :
    2 ^ 52 * (den * 2 ^ exponent num den) ≤ num * one := by
  have hquotient : num * one / den ≠ 0 := by
    intro h0
    simp [exponent, h0] at h
  have hle : 2 ^ (exponent num den + 52) ≤ num * one / den := by
    refine Nat.le_trans (Nat.pow_le_pow_right (by decide) ?_) (Nat.log2_self_le hquotient)
    unfold exponent at h ⊢
    omega
  calc 2 ^ 52 * (den * 2 ^ exponent num den) = 2 ^ (exponent num den + 52) * den := by
        rw [Nat.pow_add]; ac_rfl
    _ ≤ num * one := (Nat.le_div_iff_mul_le hden).mp hle

/-- The significand of the nearest number has the digits that the scale leaves to it. -/
theorem significand_bounds :
    divideToEven (num * one) (den * 2 ^ exponent num den) ≤ 2 ^ 53 ∧
      (exponent num den = 0 ∨ 2 ^ 52 ≤ divideToEven (num * one) (den * 2 ^ exponent num den)) := by
  have hpos : 0 < den * 2 ^ exponent num den := Nat.mul_pos hden (Nat.two_pow_pos _)
  have hlt : num * one / (den * 2 ^ exponent num den) < 2 ^ 53 :=
    (Nat.div_lt_iff_lt_mul hpos).mpr (lt_exponent num hden)
  obtain ⟨hle, hge⟩ := divideToEven_bounds (num * one) (den * 2 ^ exponent num den)
  refine ⟨by omega, ?_⟩
  by_cases h0 : exponent num den = 0
  · exact Or.inl h0
  · have := (Nat.le_div_iff_mul_le hpos).mpr (exponent_le num hden h0)
    exact Or.inr (by omega)

end Exponent

/-- Rounding does not leave the finite numbers where the quotient is far from their end. -/
theorem nearest_lt_infinity {num den : Nat} (hden : 0 < den) (h : num ≤ den * 2 ^ 53) :
    nearest num den < infinity := by
  have hplaces := places_eq
  have hexponent : exponent num den ≤ places + 1 := by
    by_cases h0 : exponent num den = 0
    · omega
    · have hpow : den * 2 ^ (52 + exponent num den) ≤ den * 2 ^ (53 + places) := by
        calc den * 2 ^ (52 + exponent num den) = 2 ^ 52 * (den * 2 ^ exponent num den) := by
              rw [Nat.pow_add]; ac_rfl
          _ ≤ num * one := exponent_le num hden h0
          _ ≤ den * 2 ^ 53 * one := Nat.mul_le_mul_right one h
          _ = den * 2 ^ (53 + places) := by rw [Nat.pow_add, one, Nat.mul_assoc]
      have := (Nat.pow_le_pow_iff_right (by decide)).mp (Nat.le_of_mul_le_mul_left hpow hden)
      omega
  obtain ⟨hsignificand, -⟩ := significand_bounds num hden
  rw [nearest_eq]
  apply Nat.lt_of_le_of_lt (Nat.min_le_left _ _)
  simp only [infinity, unboundedNearest]
  omega

/-- How far a number lies from a quotient, in units divided by the denominator. -/
def distance (num den k : Nat) : Nat :=
  ((units k * den : Nat) - (num * one : Nat) : Int).natAbs

/-- A number is a multiple of the unit of a scale, or it lies below the least number that has this
scale and all leading digits. -/
theorem units_mul_cases (den k e : Nat) (hden : 0 < den) :
    (∃ n, units k * den = n * (den * 2 ^ e)) ∨
      e ≠ 0 ∧ units k * den < 2 ^ 52 * (den * 2 ^ e) := by
  obtain hscale | hscale := Nat.lt_or_ge (scale k) e
  · have hunits : units k < 2 ^ 52 * 2 ^ e := by
      rw [← Nat.pow_add]
      refine Nat.lt_of_lt_of_le (units_lt k) (Nat.pow_le_pow_right (by decide) ?_)
      omega
    refine Or.inr ⟨Nat.ne_of_gt (Nat.zero_lt_of_lt hscale), ?_⟩
    calc units k * den < 2 ^ 52 * 2 ^ e * den := Nat.mul_lt_mul_of_pos_right hunits hden
      _ = 2 ^ 52 * (den * 2 ^ e) := by ac_rfl
  · have hpow : 2 ^ scale k = 2 ^ (scale k - e) * 2 ^ e := by
      rw [← Nat.pow_add, Nat.sub_add_cancel hscale]
    refine Or.inl ⟨significand k * 2 ^ (scale k - e), ?_⟩
    rw [units, hpow]
    ac_rfl

/-- Every other number lies farther from a quotient than its nearest one, or as far and the last
digit of the nearest one is zero. Numbers of a smaller scale than that one lie below the power of
two where its scale begins, and so they are farther than this. -/
theorem distance_lt_or_even {num den k : Nat} (hden : 0 < den)
    (hk : k ≠ unboundedNearest num den) :
    distance num den (unboundedNearest num den) < distance num den k ∨
      distance num den (unboundedNearest num den) = distance num den k ∧
        unboundedNearest num den % 2 = 0 := by
  obtain ⟨hle, hge⟩ := significand_bounds num hden
  have hquotient := exponent_le num hden
  rw [unboundedNearest] at hk ⊢
  generalize exponent num den = e at hle hge hquotient hk ⊢
  simp only [distance]
  generalize num * one = a at hle hge hquotient hk ⊢
  have hpos : 0 < den * 2 ^ e := Nat.mul_pos hden (Nat.two_pow_pos e)
  have hnearest : units (e * 2 ^ 52 + divideToEven a (den * 2 ^ e)) * den =
      divideToEven a (den * 2 ^ e) * (den * 2 ^ e) := by
    rw [units_scale_add hle hge]
    ac_rfl
  obtain ⟨n, hmultiple⟩ | ⟨he, hbelow⟩ := units_mul_cases den k e hden
  · have hn : n ≠ divideToEven a (den * 2 ^ e) := by
      rintro rfl
      apply hk
      apply units_strictMono.injective
      exact Nat.mul_right_cancel hden (hmultiple.trans hnearest.symm)
    rw [hnearest, hmultiple]
    refine (divideToEven_lt_or_even a hpos hn).imp_right (And.imp_right fun heven => ?_)
    omega
  · have hcorner := hquotient he
    have hmin := divideToEven_nearest a (2 ^ 52) hpos
    rw [hnearest]
    omega

theorem distance_unboundedNearest_le {num den : Nat} (hden : 0 < den) (k : Nat) :
    distance num den (unboundedNearest num den) ≤ distance num den k := by
  by_cases hk : k = unboundedNearest num den
  · rw [hk]
  · obtain h | ⟨h, -⟩ := distance_lt_or_even hden hk
    · exact Nat.le_of_lt h
    · exact Nat.le_of_eq h

/-- No number lies nearer to a quotient than its nearest one. -/
theorem distance_nearest_le {num den : Nat} (hden : 0 < den) (h : nearest num den < infinity)
    (k : Nat) : distance num den (nearest num den) ≤ distance num den k := by
  rw [nearest_eq_of_lt h]
  exact distance_unboundedNearest_le hden k

theorem nearest_even_of_distance_eq {num den k : Nat} (hden : 0 < den)
    (h : nearest num den < infinity) (hk : k ≠ nearest num den)
    (htie : distance num den k = distance num den (nearest num den)) : nearest num den % 2 = 0 := by
  rw [nearest_eq_of_lt h] at hk htie ⊢
  obtain hlt | ⟨-, heven⟩ := distance_lt_or_even hden hk
  · exact absurd htie (Nat.ne_of_gt hlt)
  · exact heven

/-- If the greater of two numbers is nearest to the smaller of two others, and the smaller to the
greater, then these lie halfway between and are equal. -/
theorem eq_of_nearest_crossed {a a' x x' : Nat} (ha : a ≤ a') (hx : x' < x)
    (h : ((x : Int) - a).natAbs ≤ ((x' : Int) - a).natAbs)
    (h' : ((x' : Int) - a').natAbs ≤ ((x : Int) - a').natAbs) : a = a' := by
  omega

/-- A greater quotient has no smaller nearest number. -/
theorem unboundedNearest_mono {num num' den : Nat} (hden : 0 < den) (h : num ≤ num') :
    unboundedNearest num den ≤ unboundedNearest num' den := by
  apply Nat.le_of_not_lt
  intro hlt
  have hunits : units (unboundedNearest num' den) * den < units (unboundedNearest num den) * den :=
    Nat.mul_lt_mul_of_pos_right (units_strictMono hlt) hden
  have hone : num * one ≤ num' * one := Nat.mul_le_mul_right one h
  have heq : num * one = num' * one := eq_of_nearest_crossed hone hunits
    (distance_unboundedNearest_le hden (unboundedNearest num' den))
    (distance_unboundedNearest_le hden (unboundedNearest num den))
  rw [Nat.mul_right_cancel one_pos heq] at hlt
  exact Nat.lt_irrefl _ hlt

theorem nearest_mono {num num' den : Nat} (hden : 0 < den) (h : num ≤ num') :
    nearest num den ≤ nearest num' den := by
  rw [nearest_eq, nearest_eq]
  exact min_le_min_right _ (unboundedNearest_mono hden h)

end Stepwise.Binary64
