import Stepwise.Number.Decimal

namespace Stepwise

inductive Tie where
  | greater
  | even
  deriving DecidableEq

namespace Decimal

open Binary64

attribute [local instance (high)] instPowNat

/-- The power of ten of the leading digit of a number that is not zero. Below one it is found on
the inverse, which is no power of ten. -/
def leadingPower (k : Nat) : Int :=
  if one ≤ units k then (Nat.toDigits 10 (units k / one)).length - 1
  else -(Nat.toDigits 10 (one / units k)).length

/-- The neighbours of a number among the multiples of `10 ^ (-places)`, the preferred one
first. -/
def neighbours (tie : Tie) (k : Nat) (places : Int) : List Decimal :=
  let spread := 10 ^ (-places).toNat
  let num := units k * 10 ^ places.toNat
  let den := one * spread
  let below := num / den
  let twice := 2 * (num % den)
  let lower := ⟨below * spread, places.toNat⟩
  let upper := ⟨(below + 1) * spread, places.toNat⟩
  if twice < den ∨ twice = den ∧ tie = .even ∧ below % 2 = 0 then [lower, upper]
  else [upper, lower]

/-- The exact value, whose numeral may be a thousand digits long. -/
def exact (k : Nat) : Decimal :=
  ⟨units k * 5 ^ Binary64.places, Binary64.places⟩

/-- As many digits tell any two numbers apart. -/
def maxDigits : Nat := 17

/-- The first neighbour that reads back, on finer and finer grids from one significant digit
on. -/
def candidate? (tie : Tie) (k : Nat) : Option Decimal :=
  let power := leadingPower k
  (List.range maxDigits).findSome? fun (n : Nat) =>
    (neighbours tie k (n - power)).find? (·.index == k)

/-- Of all numerals that read back as the number, one with the fewest significant digits, and among
those the nearest to it. A number may lie halfway between two; the tie says which is taken. -/
def shortest (tie : Tie) (k : Nat) : Decimal :=
  (candidate? tie k).getD (exact k)

theorem exact_index {k : Nat} (h : k ≤ infinity) : (exact k).index = k := by
  have hten : 10 ^ Binary64.places = one * 5 ^ Binary64.places := by
    rw [one, ← Nat.mul_pow]
  rw [index, exact, hten, nearest_mul_right _ _ (Nat.pow_pos (by decide)), nearest_units h]

theorem index_of_candidate? {tie : Tie} {k : Nat} {d : Decimal} (h : candidate? tie k = some d) :
    d.index = k := by
  obtain ⟨n, _, hn⟩ := List.exists_of_findSome?_eq_some h
  have hd := List.find?_some hn
  exact eq_of_beq hd

theorem shortest_index (tie : Tie) {k : Nat} (h : k ≤ infinity) : (shortest tie k).index = k := by
  unfold shortest
  cases hc : candidate? tie k with
  | none => rw [Option.getD_none, exact_index h]
  | some d => rw [Option.getD_some, index_of_candidate? hc]

end Decimal

end Stepwise
