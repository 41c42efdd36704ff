namespace Stepwise.Binary64

-- Powers are core's own here, whatever else is imported; a literal exponent needs its type for it.
attribute [local instance (high)] instPowNat

/-- A number without its sign is known by its index: its place in the ascending list of the
non-negative numbers, which is also its bit pattern. This is the index of infinity, one past that
of the greatest finite number. -/
def infinity : Nat := 0x7FF0000000000000

/-- The binary places of the least positive number. -/
@[irreducible]
def places : Nat := 1074

def one : Nat := 2 ^ places

/-- The leading digits of a number: all 53 of them from the first normal number on. -/
def significand (k : Nat) : Nat :=
  if k < 2 ^ (52 : Nat) then k else 2 ^ (52 : Nat) + k % 2 ^ (52 : Nat)

/-- The power of two by which the significand is multiplied to count units. -/
def scale (k : Nat) : Nat :=
  k / 2 ^ (52 : Nat) - 1

/-- The number of index `k` is so many times the least positive number, `2 ^ (-1074)`. -/
def units (k : Nat) : Nat :=
  significand k * 2 ^ scale k

/-- The integer nearest to a quotient; halfway between two, the even one. -/
def divideToEven (a b : Nat) : Nat :=
  let q := a / b
  let r := a % b
  if 2 * r < b ∨ 2 * r = b ∧ q % 2 = 0 then q else q + 1

/-- The index of the number nearest to a quotient; halfway between two, the one whose
significand is even. Too large a quotient gives `infinity`. The whole units fix the scale,
and a quotient that rounds up to the next power of two lands on its index by itself. -/
def nearest (num den : Nat) : Nat :=
  let exponent := Nat.log2 (num * one / den) - 52
  min (exponent * 2 ^ (52 : Nat) + divideToEven (num * one) (den * 2 ^ exponent)) infinity

/-- The index of the absolute value. -/
def index (v : Float) : Nat :=
  v.toBits.toNat % 2 ^ (63 : Nat)

def isNegative (v : Float) : Bool :=
  2 ^ (63 : Nat) ≤ v.toBits.toNat

/-- The number with a given sign and index. -/
def ofIndex (negative : Bool) (k : Nat) : Float :=
  .ofBits (.ofNat (if negative then 2 ^ (63 : Nat) + k else k))

theorem divideToEven_mul_left (n : Nat) {b : Nat} (hb : 0 < b) : divideToEven (b * n) b = n := by
  simp [divideToEven, Nat.mul_div_cancel_left n hb, Nat.mul_mod_right, hb]

theorem divideToEven_mul_right (a b : Nat) {c : Nat} (hc : 0 < c) :
    divideToEven (a * c) (b * c) = divideToEven a b := by
  have hlt : 2 * (a % b * c) < b * c ↔ 2 * (a % b) < b := by
    rw [← Nat.mul_assoc, Nat.mul_lt_mul_right hc]
  have heq : 2 * (a % b * c) = b * c ↔ 2 * (a % b) = b := by
    rw [← Nat.mul_assoc, Nat.mul_right_cancel_iff hc]
  simp only [divideToEven, Nat.mul_div_mul_right a b hc, Nat.mul_mod_mul_right, hlt, heq]

theorem nearest_mul_right (num den : Nat) {c : Nat} (hc : 0 < c) :
    nearest (num * c) (den * c) = nearest num den := by
  have hnum : num * c * one = num * one * c := Nat.mul_right_comm num c one
  have hden (e : Nat) : den * c * 2 ^ e = den * 2 ^ e * c := Nat.mul_right_comm den c _
  simp only [nearest, hnum, hden, Nat.mul_div_mul_right _ den hc, divideToEven_mul_right _ _ hc]

theorem one_pos : 0 < one :=
  Nat.two_pow_pos places

theorem places_eq : places = 1074 := by
  rw [places]

theorem significand_lt (k : Nat) : significand k < 2 ^ (53 : Nat) := by
  unfold significand
  split <;> omega

theorem log2_units (k : Nat) : Nat.log2 (units k) - 52 = scale k := by
  by_cases hk : k < 2 ^ (53 : Nat)
  · have hs : scale k = 0 := by unfold scale; omega
    have hu : units k < 2 ^ (53 : Nat) := by
      simp only [units, hs, significand]
      split <;> omega
    by_cases h0 : units k = 0
    · simp [h0, hs]
    · have := (Nat.log2_lt h0).2 hu
      omega
  · have hl : 2 ^ (52 + scale k) ≤ units k := by
      have : 2 ^ (52 : Nat) ≤ significand k := by unfold significand; split <;> omega
      rw [Nat.pow_add]
      exact Nat.mul_le_mul_right _ this
    have hu : units k < 2 ^ (52 + scale k + 1) := by
      rw [show 52 + scale k + 1 = 53 + scale k by omega, Nat.pow_add]
      exact Nat.mul_lt_mul_of_pos_right (significand_lt k) (Nat.two_pow_pos _)
    have h0 : units k ≠ 0 := Nat.ne_of_gt (Nat.lt_of_lt_of_le (Nat.two_pow_pos _) hl)
    have := (Nat.log2_eq_iff h0).2 ⟨hl, hu⟩
    omega

theorem scale_mul_add_significand (k : Nat) : scale k * 2 ^ (52 : Nat) + significand k = k := by
  unfold scale significand
  split <;> omega

theorem nearest_units {k : Nat} (h : k ≤ infinity) : nearest (units k) one = k := by
  have hdiv : divideToEven (units k * one) (one * 2 ^ scale k) = significand k := by
    have : units k * one = one * 2 ^ scale k * significand k := by
      rw [units]
      ac_rfl
    rw [this, divideToEven_mul_left _ (Nat.mul_pos one_pos (Nat.two_pow_pos _))]
  simp only [nearest, Nat.mul_div_cancel _ one_pos, log2_units, hdiv,
    scale_mul_add_significand, Nat.min_eq_left h]

end Stepwise.Binary64
