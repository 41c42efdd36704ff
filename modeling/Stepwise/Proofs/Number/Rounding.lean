import Stepwise.Number.Places
import Stepwise.Proofs.Number.Bits
import Stepwise.Proofs.Number.Nearest

namespace Stepwise

open Binary64

theorem scale_lt_places_iff {k : Nat} : scale k < Binary64.places ↔ k < firstIntegral := by
  rw [places_eq, scale, firstIntegral]
  omega

theorem units_le {k : Nat} (hk : k < firstIntegral) : units k ≤ 2 ^ 52 * one := by
  have hscale := scale_lt_places_iff.mpr hk
  rw [one, ← Nat.pow_add]
  apply Nat.le_trans (Nat.le_of_lt (units_lt k))
  exact Nat.pow_le_pow_right (by decide) (by omega)

theorem wholePlaces_le {k : Nat} (hk : k < firstIntegral) (places : Nat) :
    wholePlaces places k ≤ 10 ^ places * 2 ^ 53 := by
  have hunits : units k * 10 ^ places ≤ 2 ^ 52 * one * 10 ^ places :=
    Nat.mul_le_mul_right _ (units_le hk)
  have hone : one ≤ one * 10 ^ places := Nat.le_mul_of_pos_right _ (Nat.pow_pos (by decide))
  rw [wholePlaces]
  apply Nat.div_le_of_le_mul
  calc 2 * units k * 10 ^ places + one
      = 2 * (units k * 10 ^ places) + one := by rw [Nat.mul_assoc]
    _ ≤ 2 * (2 ^ 52 * one * 10 ^ places) + one * 10 ^ places :=
      Nat.add_le_add (Nat.mul_le_mul_left 2 hunits) hone
    _ = (2 ^ 53 + 1) * (one * 10 ^ places) := by
      rw [Nat.mul_assoc, ← Nat.mul_assoc 2, show (2 : Nat) * 2 ^ 52 = 2 ^ 53 from rfl,
        Nat.add_mul, Nat.one_mul]
    _ ≤ 2 ^ 54 * (one * 10 ^ places) := Nat.mul_le_mul_right _ (by decide)
    _ = 2 * one * (10 ^ places * 2 ^ 53) := by
      rw [show (2 : Nat) ^ 54 = 2 * 2 ^ 53 from rfl]
      ac_rfl

theorem nearest_wholePlaces_lt_infinity {k : Nat} (hk : k < firstIntegral) (places : Nat) :
    nearest (wholePlaces places k) (10 ^ places) < infinity :=
  nearest_lt_infinity (Nat.pow_pos (by decide)) (wholePlaces_le hk places)

/-- A finite number stays finite when it is rounded, and never becomes a zero with a sign. -/
theorem roundPlaces_spec (places : Nat) {v : Float} (hv : v.isFinite = true) :
    (roundPlaces places v).isFinite = true ∧
      (isNegative (roundPlaces places v) = true → index (roundPlaces places v) ≠ 0) := by
  simp only [roundPlaces]
  split
  · refine ⟨hv, fun _ h0 => ?_⟩
    have hpos : 0 < firstIntegral := by decide
    omega
  · have hlt := nearest_wholePlaces_lt_infinity (Nat.lt_of_not_le ‹_›) places
    generalize nearest (wholePlaces places (index v)) (10 ^ places) = rounded at hlt
    have hle := Nat.le_of_lt hlt
    rw [isFinite_iff, index_ofIndex _ hle, isNegative_ofIndex _ hle]
    refine ⟨hlt, fun hsign => ?_⟩
    simp at hsign
    exact hsign.2

theorem wholePlaces_eq_iff {places k n : Nat} : wholePlaces places k = n ↔
    2 * (n * one) ≤ 2 * (units k * 10 ^ places) + one ∧
      2 * (units k * 10 ^ places) < 2 * (n * one) + one := by
  have hpos := one_pos
  rw [wholePlaces, Nat.div_eq_iff (by omega), Nat.mul_left_comm, Nat.mul_assoc]
  generalize n * one = a
  omega

theorem places_eq_zero_of_mul_eq_one {places d : Nat} (h : d * 10 ^ places = one) : places = 0 := by
  by_contra h0
  have hdvd : 5 ∣ one := by
    rw [← h]
    exact Dvd.dvd.mul_left (Dvd.dvd.pow (by decide) h0) d
  have : 5 ∣ 2 := Nat.Prime.dvd_of_dvd_pow (by decide) hdvd
  revert this
  decide

/-- If two numbers lie on either side of a whole number of decimal places, and halfway to the next
ones, then the number after the smaller one is nearer than they are. -/
theorem distance_succ_lt_of_halves {places k x n : Nat} (hk : k < firstIntegral)
    (hbelow : 2 * (units k * 10 ^ places) + one = 2 * (n * one))
    (habove : 2 * (units x * 10 ^ places) = 2 * (n * one) + one) :
    2 * distance n (10 ^ places) (k + 1) < one := by
  have hone : (units x - units k) * 10 ^ places = one := by
    rw [Nat.sub_mul]
    omega
  have hzero := places_eq_zero_of_mul_eq_one hone
  have hstep : 2 * 2 ^ scale k ≤ one := by
    rw [← Nat.pow_succ']
    exact Nat.pow_le_pow_right (by decide) (scale_lt_places_iff.mpr hk)
  have hpos : 0 < 2 ^ scale k := Nat.two_pow_pos _
  rw [hzero, Nat.pow_zero, Nat.mul_one] at hbelow
  rw [distance, units_succ, hzero, Nat.pow_zero, Nat.mul_one]
  generalize n * one = a at hbelow
  omega

/-- The number nearest to a whole number of decimal places rounds to the same whole number. It may
lie off by half a place, but the number that was rounded lay no nearer. -/
theorem wholePlaces_nearest {k : Nat} (hk : k < firstIntegral) (places : Nat) :
    wholePlaces places (nearest (wholePlaces places k) (10 ^ places)) = wholePlaces places k := by
  have hfinite := nearest_wholePlaces_lt_infinity hk places
  obtain ⟨hlower, hupper⟩ := wholePlaces_eq_iff.mp (Eq.refl (wholePlaces places k))
  generalize wholePlaces places k = n at hfinite hlower hupper ⊢
  have hnearest := distance_nearest_le (Nat.pow_pos (by decide)) hfinite
  generalize nearest n (10 ^ places) = x at hnearest ⊢
  have hk' := hnearest k
  simp only [distance] at hk'
  rw [wholePlaces_eq_iff]
  by_contra hne
  -- `x` is no farther from `n` than `k`, which rounds to it: so both lie halfway to the next ones,
  -- and `x` above, where a half is rounded away
  have hbelow : 2 * (units k * 10 ^ places) + one = 2 * (n * one) := by omega
  have habove : 2 * (units x * 10 ^ places) = 2 * (n * one) + one := by omega
  have hbetween := distance_succ_lt_of_halves hk hbelow habove
  have hnext := hnearest (k + 1)
  have hx : 2 * distance n (10 ^ places) x = one := by
    rw [distance]
    omega
  omega

theorem roundPlaces_roundPlaces (places : Nat) (v : Float) :
    roundPlaces places (roundPlaces places v) = roundPlaces places v := by
  by_cases hk : firstIntegral ≤ index v
  · have h : roundPlaces places v = v := if_pos hk
    rw [h, h]
  · have hlt := Nat.lt_of_not_le hk
    have hwhole := wholePlaces_nearest hlt places
    have hle := Nat.le_of_lt (nearest_wholePlaces_lt_infinity hlt places)
    simp only [roundPlaces, if_neg hk]
    rw [index_ofIndex _ hle, isNegative_ofIndex _ hle, hwhole, Bool.and_assoc, Bool.and_self]
    split <;> rfl

end Stepwise
