import Stepwise.Number.Shortest
import Stepwise.Proofs.Number.Nearest

namespace Stepwise.Decimal

open Binary64

theorem units_lt_of_leadingPower_lt {k : Nat} (h : leadingPower k < 16) :
    units k < 10 ^ 16 * one := by
  unfold leadingPower at h
  split at h
  · have hlength : (Nat.toDigits 10 (units k / one)).length ≤ 16 := by omega
    rw [Nat.length_toDigits_le_iff (by decide) (by decide)] at hlength
    exact (Nat.div_lt_iff_lt_mul Binary64.one_pos).mp hlength
  · have : one ≤ 10 ^ 16 * one := Nat.le_mul_of_pos_left one (by decide)
    omega

theorem of_mem_neighbours {tie : Tie} {k : Nat} {places : Int} {d : Decimal}
    (h : d ∈ neighbours tie k places) : d.places = places.toNat ∧
      d.numerator ≤ (units k * 10 ^ places.toNat / (one * 10 ^ (-places).toNat) + 1) *
        10 ^ (-places).toNat := by
  have hle (n : Nat) : n * 10 ^ (-places).toNat ≤ (n + 1) * 10 ^ (-places).toNat :=
    Nat.mul_le_mul_right _ (Nat.le_succ n)
  simp only [neighbours] at h
  split at h <;> obtain rfl | rfl : _ ∨ _ := by simpa using h
  all_goals first
    | exact ⟨rfl, hle _⟩
    | exact ⟨rfl, Nat.le_refl _⟩

/-- Up to 17 digits do not reach past the point from `10 ^ 16` on, except for `10 ^ 16` itself as
the neighbour of a smaller number. -/
theorem dvd_of_mem_neighbours {tie : Tie} {k n : Nat} {d : Decimal} (hn : n < maxDigits)
    (hd : d ∈ neighbours tie k (n - leadingPower k))
    (hlarge : 10 ^ 16 ≤ d.numerator / 10 ^ d.places) : 10 ^ d.places ∣ d.numerator := by
  obtain ⟨hplaces, hnumerator⟩ := of_mem_neighbours hd
  obtain hpower | hpower := Int.lt_or_le (leadingPower k) n
  · have hunits : units k < 10 ^ 16 * one := by
      apply units_lt_of_leadingPower_lt
      unfold maxDigits at hn
      omega
    have hspread : (-(n - leadingPower k)).toNat = 0 := by omega
    rw [hspread, Nat.pow_zero, Nat.mul_one, Nat.mul_one, ← hplaces] at hnumerator
    have hbelow : units k * 10 ^ d.places / one < 10 ^ 16 * 10 ^ d.places := by
      rw [Nat.div_lt_iff_lt_mul Binary64.one_pos, Nat.mul_right_comm]
      exact Nat.mul_lt_mul_of_pos_right hunits (Nat.pow_pos (by decide))
    have habove := (Nat.le_div_iff_mul_le (Nat.pow_pos (by decide))).mp hlarge
    have heq : d.numerator = 10 ^ 16 * 10 ^ d.places := by omega
    exact heq ▸ Nat.dvd_mul_left _ _
  · have hzero : d.places = 0 := by omega
    rw [hzero, Nat.pow_zero]
    exact Nat.one_dvd _

/-- From `10 ^ 16` on, numbers are integers. -/
theorem dvd_exact {k : Nat} (hlarge : 10 ^ 16 ≤ (exact k).numerator / 10 ^ (exact k).places) :
    10 ^ (exact k).places ∣ (exact k).numerator := by
  have hpos : 0 < 5 ^ Binary64.places := Nat.pow_pos (by decide)
  have hten : 10 ^ (exact k).places = one * 5 ^ Binary64.places := by
    rw [exact, one, ← Nat.mul_pow]
  have hnumerator : (exact k).numerator = units k * 5 ^ Binary64.places := rfl
  rw [hten, hnumerator] at hlarge ⊢
  rw [Nat.mul_div_mul_right _ _ hpos, Nat.le_div_iff_mul_le Binary64.one_pos] at hlarge
  have hscale : Binary64.places ≤ scale k := by
    by_contra hlt
    have : 2 ^ (scale k + 53) ≤ 2 ^ 53 * one := by
      rw [one, ← Nat.pow_add]
      exact Nat.pow_le_pow_right (by decide) (by omega)
    have := units_lt k
    have := Binary64.one_pos
    omega
  apply Nat.mul_dvd_mul_right
  rw [units, one]
  exact (Nat.pow_dvd_pow 2 hscale).mul_left _

theorem dvd_shortest {tie : Tie} {k : Nat}
    (hlarge : 10 ^ 16 ≤ (shortest tie k).numerator / 10 ^ (shortest tie k).places) :
    10 ^ (shortest tie k).places ∣ (shortest tie k).numerator := by
  unfold shortest at hlarge ⊢
  cases hc : candidate? tie k with
  | none =>
    rw [hc, Option.getD_none] at hlarge
    exact dvd_exact hlarge
  | some d =>
    rw [hc, Option.getD_some] at hlarge
    obtain ⟨n, hn, hfound⟩ := List.exists_of_findSome?_eq_some hc
    exact dvd_of_mem_neighbours (List.mem_range.mp hn) (List.mem_of_find?_eq_some hfound) hlarge

end Stepwise.Decimal
