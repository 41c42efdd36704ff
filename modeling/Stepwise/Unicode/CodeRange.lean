namespace Stepwise.Unicode

structure CodeRange where
  first : Nat
  last : Nat

/-- A class is a list of intervals in ascending order, so the search stops at the first one that lies
beyond the code point. -/
def covers : List CodeRange → Nat → Bool
  | [], _ => false
  | r :: rs, n => if n < r.first then false else n ≤ r.last || covers rs n

theorem covers_of_lt {r : CodeRange} {rs : List CodeRange} {n : Nat} (h : n < r.first) :
    covers (r :: rs) n = false := by
  simp [covers, h]

theorem exists_mem_of_covers {rs : List CodeRange} {n : Nat} (h : covers rs n = true) :
    ∃ r ∈ rs, r.first ≤ n ∧ n ≤ r.last := by
  induction rs with
  | nil => cases h
  | cons r rs ih =>
      by_cases hf : n < r.first
      · simp [covers, hf] at h
      · by_cases hl : n ≤ r.last
        · exact ⟨r, by simp, by omega, hl⟩
        · simp only [covers, hf, hl, if_false, decide_false, Bool.false_or] at h
          obtain ⟨q, hq, hqn⟩ := ih h
          exact ⟨q, List.mem_cons_of_mem r hq, hqn⟩

end Stepwise.Unicode
