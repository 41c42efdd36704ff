import Stepwise.Proofs.Expr.Canonical

namespace Stepwise.Expr

variable {limits : Limits} {levels : Nat}

/-- A reader with fewer levels than a phrase has stops inside the phrase, at the operand that is one
too many; what follows the phrase is not looked at. -/
def Stops (limits : Limits) (levels : Nat) (ts : List Token) (p : Phrase) : Prop :=
  ∀ rest, reader limits levels p (ts ++ rest) = .error (.tooDeep limits.nesting)

theorem Derives.reads_of_le {p : Phrase} {d : Nat} {ts rest : List Token} {e : Expr}
    (h : Derives p d ts e) (hd : d ≤ levels) (hheight : e.height ≤ limits.height)
    (hrest : EndsBefore p rest) : reader limits levels p (ts ++ rest) = .ok (e, rest) := by
  refine ((h.reads limits levels).atEnd hrest).eq_of_not ?_
  rw [Beyond]
  omega

/-- A chain of operands that has room left goes on to the next operand. -/
theorem Derives.chain_goes_on {c : Chain} {op : Operator} {t : Token} {d : Nat} {ts : List Token}
    {a : Expr} (h : Derives (.chain c) d ts a) (hd : d ≤ levels)
    (hheight : a.height < limits.height) (ht : c.operator? t = some op) (us : List Token) :
    ∃ room, reader limits levels (.chain c) (ts ++ t :: us) = (do
      let (right, rest) ← reader limits levels c.operand us
      chainFrom limits c.operator? (reader limits levels c.operand) room (binary op a right)
        rest) := by
  obtain ⟨n, -, hn, hread⟩ := h.reads limits levels (t :: us) (endsBefore_operator ht us)
  obtain ⟨room, hroom⟩ : ∃ room, limits.height - n = room + 1 :=
    Nat.exists_eq_succ_of_ne_zero (by omega)
  refine ⟨room, ?_⟩
  rw [hread.eq_of_not (by rw [Beyond]; omega), hroom, chainFrom, ht]

theorem stops_extend {c : Chain} {op : Operator} {t : Token} {d d' : Nat} {ts us : List Token}
    {a : Expr} (h : Derives (.chain c) d ts a) (ht : c.operator? t = some op)
    (hheight : a.height < limits.height)
    (ha : levels < d → Stops limits levels ts (.chain c))
    (hb : levels < d' → Stops limits levels us c.operand) (hd : levels < max d d') :
    Stops limits levels (ts ++ t :: us) (.chain c) := by
  intro rest
  rw [List.append_assoc]
  by_cases hfirst : levels < d
  · exact ha hfirst _
  · obtain ⟨room, hread⟩ := h.chain_goes_on (Nat.le_of_not_lt hfirst) hheight ht (us ++ rest)
    exact hread.trans (error_of_bind (hb (by omega) rest) _)

theorem stops_raised {d d' : Nat} {ts us : List Token} {a : Expr} (h : Derives .atom d ts a)
    (hheight : a.height ≤ limits.height) (ha : levels < d → Stops limits levels ts .atom)
    (hb : levels < d' → Stops limits levels us .signed) (hd : levels < max d d') :
    Stops limits levels (ts ++ .power :: us) .power := by
  intro rest
  rw [List.append_assoc]
  by_cases hfirst : levels < d
  · exact error_of_bind (ha hfirst _) _
  · have hread : reader limits levels .atom (ts ++ (.power :: us ++ rest)) =
        .ok (a, .power :: us ++ rest) :=
      h.reads_of_le (Nat.le_of_not_lt hfirst) hheight fun _ _ => rfl
    exact (ok_of_bind hread _).trans (error_of_bind (hb (by omega) rest) _)

theorem stops_minus {d : Nat} {ts : List Token}
    (h : ∀ levels, levels < d → Stops limits levels ts .signed) (hd : levels < d + 1) :
    Stops limits levels (.minus :: ts) .signed := by
  intro rest
  cases levels with
  | zero => rfl
  | succ levels => exact error_of_bind (h levels (Nat.lt_of_succ_lt_succ hd) rest) _

theorem stops_plain {d : Nat} {ts : List Token} {e : Expr} (hp : Derives .power d ts e)
    (h : ∀ levels, levels < d → Stops limits levels ts .power) (hd : levels < d + 1) :
    Stops limits levels ts .signed := by
  intro rest
  cases levels with
  | zero => rw [reader, signedOperand]
  | succ levels =>
    obtain ⟨t, us, rfl, ht⟩ := hp.power_ne_minus
    rw [reader, List.cons_append, signedOperand_of_ne_minus ht]
    exact h levels (Nat.lt_of_succ_lt_succ hd) rest

theorem stops_group_tokens {ts : List Token} (h : Stops limits levels ts (.chain .sum))
    (rest : List Token) :
    Expr.group limits (signedOperand limits levels) (ts ++ [.closing] ++ rest) =
      .error (.tooDeep limits.nesting) := by
  rw [List.append_assoc]
  exact error_of_bind (h _) _

theorem stops_call {t : Text} {f : NamedFunction} {ts : List Token}
    (hf : NamedFunction.ofName? t = some f) (h : Stops limits levels ts (.chain .sum)) :
    Stops limits levels (.name t :: .opening :: (ts ++ [.closing])) .atom := by
  intro rest
  simp only [reader, List.cons_append, atom, named, ofName?_constant_eq_none hf, hf]
  exact error_of_bind (stops_group_tokens h rest) _

/-- The number of a derivation is not only enough to read the phrase, it is needed. -/
theorem Derives.stops {p : Phrase} {d : Nat} {ts : List Token} {e : Expr} (h : Derives p d ts e)
    (hheight : e.height ≤ limits.height) (hd : levels < d) : Stops limits levels ts p := by
  induction h generalizing levels with
  | operand _ ih =>
    intro rest
    rw [reader_chain]
    exact error_of_bind (ih hheight hd rest) _
  | extend h ht _ iha ihb =>
    rw [height_binary] at hheight
    exact stops_extend h ht (by omega) (iha (by omega)) (ihb (by omega)) hd
  | minus _ ih =>
    rw [height_neg] at hheight
    exact stops_minus (fun _ => ih (by omega)) hd
  | plain h ih => exact stops_plain h (fun _ => ih hheight) hd
  | base _ ih => exact fun rest => error_of_bind (ih hheight hd rest) _
  | raised h _ iha ihb =>
    rw [height_binary] at hheight
    exact stops_raised h (by omega) (iha (by omega)) (ihb (by omega)) hd
  | number | constant => cases hd
  | call hf _ ih =>
    rw [height_call] at hheight
    exact stops_call hf (ih (by omega) hd)
  | group _ ih => exact stops_group_tokens (ih hheight hd)

/-- A phrase needs one number of levels, in whatever way it is derived. -/
theorem Derives.levels_unique {p : Phrase} {d d' : Nat} {ts : List Token} {e e' : Expr}
    (h : Derives p d ts e) (h' : Derives p d' ts e') : d = d' := by
  have hle {d d' : Nat} {e e' : Expr} (h : Derives p d ts e) (h' : Derives p d' ts e') :
      d' ≤ d := by
    let limits : Limits := ⟨0, max e.height e'.height⟩
    by_contra hlt
    have hread : reader limits d p (ts ++ []) = .ok (e, []) :=
      h.reads_of_le (Nat.le_refl d) (Nat.le_max_left _ _) (endsBefore_nil p)
    have hstop : Stops limits d ts p := h'.stops (Nat.le_max_right _ _) (Nat.lt_of_not_le hlt)
    rw [hstop []] at hread
    cases hread
  exact Nat.le_antisymm (hle h' h) (hle h h')

/-- Every level and every step down the tree takes a token. -/
theorem Derives.le_length {p : Phrase} {d : Nat} {ts : List Token} {e : Expr}
    (h : Derives p d ts e) : d + p.opens ≤ ts.length ∧ e.height ≤ ts.length := by
  induction h with
  | @operand c _ _ _ _ ih => cases c <;> exact ih
  | extend _ _ _ iha ihb =>
    simp only [Phrase.opens, height_binary, List.length_append, List.length_cons] at iha ihb ⊢
    omega
  | minus _ ih =>
    simp only [Phrase.opens, height_neg, List.length_cons] at ih ⊢
    omega
  | plain _ ih => exact ih
  | base _ ih => exact ih
  | raised _ _ iha ihb =>
    simp only [Phrase.opens, height_binary, List.length_append, List.length_cons] at iha ihb ⊢
    omega
  | number | constant => simp [Phrase.opens]
  | call _ _ ih =>
    simp only [Phrase.opens, height_call, List.length_append, List.length_cons] at ih ⊢
    omega
  | group _ ih =>
    simp only [Phrase.opens, List.length_append, List.length_cons] at ih ⊢
    omega

theorem nesting_normalized {e : Expr} (h : e.Finite) (hsign : ∀ v ∈ e.literals, ¬v < 0) :
    e.normalized.nesting = e.nesting := by
  induction e with
  | literal v =>
    obtain ⟨w, hw, -⟩ := normalized_of_not_lt (finite_literal.mp h) (hsign v (by simp [literals]))
    rw [hw, nesting_literal, nesting_literal]
  | constant c => rfl
  | neg e ih =>
    have he : e.Finite := h
    rw [normalized, nesting_neg, nesting_neg, ih he hsign, opened, opened,
      needsParentheses_normalized he]
  | binary op a b iha ihb =>
    obtain ⟨ha, hb⟩ := finite_binary.mp h
    rw [literals, List.forall_mem_append] at hsign
    rw [normalized, nesting_binary, nesting_binary, iha ha hsign.1, ihb hb hsign.2, opened, opened,
      opened, opened, needsParentheses_normalized ha, needsParentheses_normalized hb]
  | call f e ih => rw [normalized, nesting_call, nesting_call, ih h hsign]

/-- While the tokens are read as an expression, the counter of open levels rises above a number:
with this number as the limit, the reader stops because of it. -/
def RisesAbove (height : Nat) (tokens : List Token) (n : Nat) : Prop :=
  reader ⟨n, height⟩ n (.chain .sum) tokens = .error (.tooDeep n)

/-- On the canonical text of a tree without negative literals, the counter of open levels rises to
the nesting of the tree and no higher, when no limit on the height interferes. -/
theorem counter_of_canonical_text {e : Expr} (h : e.Finite) (hsign : ∀ v ∈ e.literals, ¬v < 0) :
    ∃ tokens, Token.scan e.render = .ok tokens ∧
      (∀ d, Derives (.chain .sum) d tokens e.normalized ↔ d = e.nesting) ∧
      ∀ height, tokens.length ≤ height →
        (∀ n, RisesAbove height tokens n ↔ n < e.nesting) ∧
        ∀ n, e.nesting ≤ n →
          reader ⟨n, height⟩ n (.chain .sum) tokens = .ok (e.normalized, []) := by
  have hunsigned := unsigned_normalized h
  have hderives := (spelled hunsigned).toSum
  rw [nesting_normalized h hsign] at hderives
  have hlength := hderives.le_length.2
  refine ⟨e.normalized.tokens, ?_, fun d => ⟨fun hd => hd.levels_unique hderives, ?_⟩, ?_⟩
  · rw [← render_normalized h]
    exact (scans_render hunsigned).scan_eq
  · rintro rfl
    exact hderives
  intro height hheight
  have hread (n : Nat) (hn : e.nesting ≤ n) :
      reader ⟨n, height⟩ n (.chain .sum) e.normalized.tokens = .ok (e.normalized, []) := by
    have hall : reader ⟨n, height⟩ n (.chain .sum) (e.normalized.tokens ++ []) =
        .ok (e.normalized, []) :=
      hderives.reads_of_le hn (Nat.le_trans hlength hheight) (endsBefore_nil _)
    rwa [List.append_nil] at hall
  refine ⟨fun n => ⟨fun hrises => ?_, fun hn => ?_⟩, hread⟩
  · by_contra hn
    rw [RisesAbove, hread n (Nat.le_of_not_lt hn)] at hrises
    cases hrises
  · have hstop : Stops ⟨n, height⟩ n e.normalized.tokens (.chain .sum) :=
      hderives.stops (Nat.le_trans hlength hheight) hn
    rw [RisesAbove, ← List.append_nil e.normalized.tokens]
    exact hstop []

/-- The exponent, the argument and the parentheses each open a level. -/
theorem counter_of_power_of_sine :
    let e := binary .pow (neg (literal (-0.0)))
      (call .sin (binary .add (literal 1) (binary .mul (literal 2) (literal 3))))
    e.Finite ∧ (∀ v ∈ e.literals, ¬v < 0) ∧ e.render = "(-0)^sin(1+(2*3))".toList ∧
      ∃ tokens, Token.scan e.render = .ok tokens ∧ RisesAbove tokens.length tokens 3 ∧
        ¬RisesAbove tokens.length tokens 4 := by
  intro e
  have hfinite : e.Finite := by
    unfold Finite
    decide
  have hsign : ∀ v ∈ e.literals, ¬v < 0 := by decide
  have hnesting : e.nesting = 4 := by
    simp only [e, nesting_binary, nesting_neg, nesting_call, nesting_literal]
    decide +kernel
  obtain ⟨tokens, hscan, -, hcounter⟩ := counter_of_canonical_text hfinite hsign
  obtain ⟨hrises, -⟩ := hcounter tokens.length (Nat.le_refl _)
  rw [hnesting] at hrises
  exact ⟨hfinite, hsign, by decide +kernel, tokens, hscan, (hrises 3).mpr (by decide),
    mt (hrises 4).mp (by decide)⟩

end Stepwise.Expr
