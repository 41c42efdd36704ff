import Stepwise.Proofs.Expr.Reading

namespace Stepwise.Expr

variable {limits : Limits} {levels : Nat}

/-- What the reader of signed operands takes from the tokens is derived as one, without opening
more levels than there are. -/
def Follows (p : Phrase) (levels : Nat) (read : Reader) : Prop :=
  ∀ tokens e rest, read tokens = .ok (e, rest) →
    ∃ d ≤ levels, ∃ ts, tokens = ts ++ rest ∧ Derives p d ts e

theorem exists_of_bind_eq_ok {α β : Type} {x : Except Refusal α} {f : α → Except Refusal β} {b : β}
    (h : (x >>= f) = .ok b) : ∃ a, x = .ok a ∧ f a = .ok b := by
  cases x with
  | error refusal => cases h
  | ok a => exact ⟨a, rfl, h⟩

theorem error_of_bind {α β : Type} {x : Except Refusal α} {r : Refusal} (h : x = .error r)
    (f : α → Except Refusal β) : (x >>= f) = .error r := by
  rw [h]
  rfl

theorem ok_of_bind {α β : Type} {x : Except Refusal α} {a : α} (h : x = .ok a)
    (f : α → Except Refusal β) : (x >>= f) = f a := by
  rw [h]
  rfl

/-- A chain either ends where it is, or takes one more operand. -/
theorem chainFrom_eq_ok {op? : Token → Option Operator} {operand : Reader} {room : Nat}
    {left e : Expr} {tokens rest : List Token}
    (h : chainFrom limits op? operand room left tokens = .ok (e, rest)) :
    (left = e ∧ tokens = rest ∧ EndsChain op? rest) ∨
      ∃ t us op n right vs, tokens = t :: us ∧ op? t = some op ∧
        room = n + 1 ∧ operand us = .ok (right, vs) ∧
        chainFrom limits op? operand n (binary op left right) vs = .ok (e, rest) := by
  cases tokens with
  | nil =>
    rw [chainFrom] at h
    cases h
    exact Or.inl ⟨rfl, rfl, by simp [EndsChain]⟩
  | cons t us =>
    rw [chainFrom] at h
    cases hop : op? t with
    | none =>
      simp only [hop] at h
      cases h
      exact Or.inl ⟨rfl, rfl, by simpa [EndsChain] using hop⟩
    | some op =>
      cases room with
      | zero =>
        simp only [hop] at h
        cases h
      | succ n =>
        simp only [hop] at h
        obtain ⟨⟨right, vs⟩, hright, hrest⟩ := exists_of_bind_eq_ok h
        exact Or.inr ⟨t, us, op, n, right, vs, rfl, hop, rfl, hright, hrest⟩

section Chains

/-- So many operands stand in front of the tokens, with operators between them, and they make the
tree when they are grouped to the left. How many there may be is not limited. -/
inductive Joined (op? : Token → Option Operator) (operand : Reader) (tokens : List Token) :
    Nat → Expr → List Token → Prop
  | first {e : Expr} {rest : List Token} :
      operand tokens = .ok (e, rest) → Joined op? operand tokens 1 e rest
  | next {n : Nat} {left right : Expr} {t : Token} {op : Operator} {us rest : List Token} :
      Joined op? operand tokens n left (t :: us) → op? t = some op →
      operand us = .ok (right, rest) → Joined op? operand tokens (n + 1) (binary op left right) rest

variable {op? : Token → Option Operator} {operand : Reader} {tokens rest : List Token} {n : Nat}
  {e : Expr}

theorem Joined.pos (h : Joined op? operand tokens n e rest) : 0 < n := by
  cases h with
  | first => exact Nat.one_pos
  | next => exact Nat.succ_pos _

/-- After `n` operands, a chain has room for those that are left of the limit. -/
theorem Joined.chain_eq (h : Joined op? operand tokens n e rest) (hn : n ≤ max 1 limits.height) :
    chain limits op? operand tokens =
      chainFrom limits op? operand (limits.height - n) e rest := by
  induction h with
  | first hfirst => exact ok_of_bind hfirst _
  | @next n left right t op us rest hleft hop hright ih =>
    have hpos := hleft.pos
    have hroom : limits.height - n = limits.height - (n + 1) + 1 := by omega
    rw [ih (by omega), hroom, chainFrom, hop]
    exact ok_of_bind hright _

theorem joined_of_chainFrom {left : Expr} {us : List Token} {room : Nat}
    (hleft : Joined op? operand tokens n left us)
    (h : chainFrom limits op? operand room left us = .ok (e, rest)) :
    ∃ m ≤ n + room, Joined op? operand tokens m e rest ∧ EndsChain op? rest := by
  induction room generalizing n left us with
  | zero =>
    obtain ⟨rfl, rfl, hends⟩ | ⟨_, _, _, _, _, _, _, _, hroom, _⟩ := chainFrom_eq_ok h
    · exact ⟨n, Nat.le_refl n, hleft, hends⟩
    · cases hroom
  | succ room ih =>
    obtain ⟨rfl, rfl, hends⟩ | ⟨t, us, op, m, right, vs, rfl, hop, hroom, hright, hrest⟩ :=
      chainFrom_eq_ok h
    · exact ⟨n, Nat.le_add_right n _, hleft, hends⟩
    · obtain rfl := Nat.succ.inj hroom
      obtain ⟨k, hk, hjoined⟩ := ih (hleft.next hop hright) hrest
      exact ⟨k, by omega, hjoined⟩

/-- A chain is read if its operands are, up to the limit on their number. -/
theorem chain_eq_ok_iff : chain limits op? operand tokens = .ok (e, rest) ↔
    ∃ n ≤ max 1 limits.height, Joined op? operand tokens n e rest ∧ EndsChain op? rest := by
  constructor
  · intro h
    obtain ⟨⟨first, us⟩, hfirst, hrest⟩ := exists_of_bind_eq_ok h
    obtain ⟨n, hn, hjoined⟩ := joined_of_chainFrom (.first hfirst) hrest
    exact ⟨n, by omega, hjoined⟩
  · rintro ⟨n, hn, hjoined, hends⟩
    rw [hjoined.chain_eq hn, chainFrom_of_endsChain hends]

end Chains

section Inversion

variable {signed : Reader} {tokens rest : List Token} {e : Expr}

theorem group_eq_ok (h : Expr.group limits signed tokens = .ok (e, rest)) :
    sum limits signed tokens = .ok (e, .closing :: rest) := by
  obtain ⟨⟨e', us⟩, hsum, hnext⟩ := exists_of_bind_eq_ok h
  dsimp only at hnext
  split at hnext
  · cases hnext
    exact hsum
  · cases hnext
  · cases hnext

/-- What an atom can be. -/
inductive ReadsAtom (limits : Limits) (signed : Reader) : List Token → Expr → List Token → Prop
  | number {t : Text} {v : Float} {rest : List Token} :
      Decimal.finite? t = some v → ReadsAtom limits signed (.number t :: rest) (literal v) rest
  | constant {t : Text} {c : NamedConstant} {rest : List Token} :
      NamedConstant.ofName? t = some c →
      ReadsAtom limits signed (.name t :: rest) (.constant c) rest
  | call {t : Text} {f : NamedFunction} {us rest : List Token} {argument : Expr} :
      NamedFunction.ofName? t = some f → Expr.group limits signed us = .ok (argument, rest) →
      ReadsAtom limits signed (.name t :: .opening :: us) (.call f argument) rest
  | group {us rest : List Token} {e : Expr} : Expr.group limits signed us = .ok (e, rest) →
      ReadsAtom limits signed (.opening :: us) e rest

theorem readsAtom_of_named {name : Text}
    (h : Expr.named limits signed name tokens = .ok (e, rest)) :
    ReadsAtom limits signed (.name name :: tokens) e rest := by
  rw [named] at h
  split at h
  · cases h
    exact .constant ‹_›
  · cases h
  · split at h
    · obtain ⟨⟨argument, us⟩, hgroup, h⟩ := exists_of_bind_eq_ok h
      cases h
      exact .call ‹_› hgroup
    · cases h

theorem atom_eq_ok (h : atom limits signed tokens = .ok (e, rest)) :
    ReadsAtom limits signed tokens e rest := by
  rw [atom.eq_def] at h
  split at h
  · cases h
  · split at h
    · cases h
      exact .number ‹_›
    · cases h
  · exact readsAtom_of_named h
  · exact .group h
  · cases h

theorem power_eq_ok (h : power limits signed tokens = .ok (e, rest)) :
    atom limits signed tokens = .ok (e, rest) ∨ ∃ base us exponent,
      atom limits signed tokens = .ok (base, .power :: us) ∧ signed us = .ok (exponent, rest) ∧
      e = binary .pow base exponent := by
  obtain ⟨⟨base, us⟩, hbase, hnext⟩ := exists_of_bind_eq_ok h
  dsimp only at hnext
  split at hnext
  · obtain ⟨⟨exponent, vs⟩, hexponent, hpair⟩ := exists_of_bind_eq_ok hnext
    cases hpair
    exact Or.inr ⟨base, _, exponent, hbase, hexponent, rfl⟩
  · cases hnext
    exact Or.inl hbase

theorem signedOperand_eq_ok (h : signedOperand limits (levels + 1) tokens = .ok (e, rest)) :
    (∃ us operand, tokens = .minus :: us ∧ signedOperand limits levels us = .ok (operand, rest) ∧
      e = neg operand) ∨ power limits (signedOperand limits levels) tokens = .ok (e, rest) := by
  rw [signedOperand.eq_def] at h
  split at h
  · contradiction
  · obtain ⟨⟨operand, us⟩, hoperand, h⟩ := exists_of_bind_eq_ok h
    cases h
    cases ‹_ + 1 = _ + 1›
    exact Or.inl ⟨_, operand, rfl, hoperand, rfl⟩
  · cases ‹_ + 1 = _ + 1›
    exact Or.inr h

end Inversion

theorem Joined.follows {c : Chain} {operand : Reader} {tokens rest : List Token} {n : Nat}
    {e : Expr} (h : Joined c.operator? operand tokens n e rest)
    (ho : Follows c.operand levels operand) :
    ∃ d ≤ levels, ∃ ts, tokens = ts ++ rest ∧ Derives (.chain c) d ts e := by
  induction h with
  | first hfirst =>
    obtain ⟨d, hd, ts, rfl, hts⟩ := ho _ _ _ hfirst
    exact ⟨d, hd, ts, rfl, .operand hts⟩
  | next _ hop hright ih =>
    obtain ⟨d, hd, ts, rfl, hts⟩ := ih
    obtain ⟨d', hd', us, rfl, hus⟩ := ho _ _ _ hright
    exact ⟨max d d', Nat.max_le.mpr ⟨hd, hd'⟩, ts ++ _ :: us, by simp, hts.extend hop hus⟩

theorem follows_chain {c : Chain} {operand : Reader} (ho : Follows c.operand levels operand) :
    Follows (.chain c) levels (chain limits c.operator? operand) := by
  intro tokens e rest h
  obtain ⟨n, -, hjoined, -⟩ := chain_eq_ok_iff.mp h
  exact hjoined.follows ho

theorem follows_sum {signed : Reader} (hs : Follows .signed levels signed) :
    Follows (.chain .sum) levels (sum limits signed) :=
  follows_chain (c := .sum) (follows_chain (c := .product) hs)

theorem follows_group {signed : Reader} (hs : Follows .signed levels signed)
    {tokens rest : List Token} {e : Expr}
    (h : Expr.group limits signed tokens = .ok (e, rest)) :
    ∃ d ≤ levels, ∃ ts, tokens = ts ++ .closing :: rest ∧ Derives (.chain .sum) d ts e :=
  follows_sum hs _ _ _ (group_eq_ok h)

theorem follows_atom {signed : Reader} (hs : Follows .signed levels signed) :
    Follows .atom levels (atom limits signed) := by
  intro tokens e rest h
  cases atom_eq_ok h with
  | number hv => exact ⟨0, Nat.zero_le _, [_], rfl, .number hv⟩
  | constant hc => exact ⟨0, Nat.zero_le _, [_], rfl, .constant hc⟩
  | call hf hgroup =>
    obtain ⟨d, hd, ts, rfl, hts⟩ := follows_group hs hgroup
    exact ⟨d, hd, .name _ :: .opening :: (ts ++ [.closing]), by simp, .call hf hts⟩
  | group hgroup =>
    obtain ⟨d, hd, ts, rfl, hts⟩ := follows_group hs hgroup
    exact ⟨d, hd, .opening :: (ts ++ [.closing]), by simp, .group hts⟩

theorem follows_power {signed : Reader} (hs : Follows .signed levels signed) :
    Follows .power levels (power limits signed) := by
  intro tokens e rest h
  obtain hbase | ⟨base, us, exponent, hbase, hexponent, rfl⟩ := power_eq_ok h
  · obtain ⟨d, hd, ts, rfl, hts⟩ := follows_atom hs _ _ _ hbase
    exact ⟨d, hd, ts, rfl, .base hts⟩
  · obtain ⟨d, hd, ts, rfl, hts⟩ := follows_atom hs _ _ _ hbase
    obtain ⟨d', hd', us, rfl, hus⟩ := hs _ _ _ hexponent
    exact ⟨max d d', Nat.max_le.mpr ⟨hd, hd'⟩, ts ++ .power :: us, by simp, .raised hts hus⟩

/-- The levels count how deep signed operands lie inside one another, and not how many there
are: what was opened for an operand is closed after it. -/
theorem follows_signedOperand (levels : Nat) :
    Follows .signed levels (signedOperand limits levels) := by
  induction levels with
  | zero =>
    intro tokens e rest h
    rw [signedOperand] at h
    cases h
  | succ levels ih =>
    intro tokens e rest h
    obtain ⟨us, operand, rfl, hoperand, rfl⟩ | hpower := signedOperand_eq_ok h
    · obtain ⟨d, hd, ts, rfl, hts⟩ := ih _ _ _ hoperand
      exact ⟨d + 1, Nat.succ_le_succ hd, .minus :: ts, rfl, .minus hts⟩
    · obtain ⟨d, hd, ts, rfl, hts⟩ := follows_power ih _ _ _ hpower
      exact ⟨d + 1, Nat.succ_le_succ hd, ts, rfl, .plain hts⟩

theorem follows_reader (levels : Nat) (c : Chain) :
    Follows (.chain c) levels (reader limits levels (.chain c)) := by
  have hs : Follows .signed levels (signedOperand limits levels) := follows_signedOperand levels
  cases c with
  | sum => exact follows_sum hs
  | product => exact follows_chain (c := .product) hs

theorem Derives.ne_nil {p : Phrase} {d : Nat} {ts : List Token} {e : Expr} (h : Derives p d ts e) :
    ts ≠ [] := by
  induction h with
  | operand _ ih | plain _ ih | base _ ih => exact ih
  | extend | minus | raised | number | constant | call | group => simp

theorem parse_of_derives {d : Nat} {ts : List Token} {e : Expr} (h : Derives (.chain .sum) d ts e) :
    ReadsUnless (limits.nesting < d ∨ limits.height < e.height ∨ limits.nesting < e.nesting)
      (parse limits ts) (.ok e) := by
  have hread := (h.reads limits limits.nesting).atEnd (endsBefore_nil _)
  rw [List.append_nil] at hread
  rw [parse, if_neg (by simpa using h.ne_nil)]
  refine hread.bind (Or.imp_right Or.inl) ?_
  dsimp only
  split
  · exact Or.inr ⟨Or.inr (Or.inl ‹_›), limits.height, rfl⟩
  · split
    · exact Or.inr ⟨Or.inr (Or.inr ‹_›), limits.nesting, rfl⟩
    · exact .refl _

theorem derives_of_parse {ts : List Token} {e : Expr} (h : parse limits ts = .ok e) :
    (∃ d ≤ limits.nesting, Derives (.chain .sum) d ts e) ∧
      e.height ≤ limits.height ∧ e.nesting ≤ limits.nesting := by
  rw [parse] at h
  split at h
  · cases h
  · obtain ⟨⟨e', rest⟩, hsum, hnext⟩ := exists_of_bind_eq_ok h
    obtain ⟨d, hd, us, rfl, hus⟩ := follows_reader _ .sum _ _ _ hsum
    cases rest with
    | cons t rest => cases hnext
    | nil =>
      dsimp only at hnext
      split at hnext
      · cases hnext
      · split at hnext
        · cases hnext
        · cases hnext
          exact ⟨⟨d, hd, by simpa using hus⟩, by omega, by omega⟩

theorem parse_eq_ok_iff {ts : List Token} {e : Expr} :
    parse limits ts = .ok e ↔ (∃ d ≤ limits.nesting, Derives (.chain .sum) d ts e) ∧
      e.height ≤ limits.height ∧ e.nesting ≤ limits.nesting := by
  refine ⟨derives_of_parse, fun ⟨⟨d, hd, hts⟩, hheight, hnesting⟩ => ?_⟩
  exact (parse_of_derives hts).eq_of_not (by omega)

/-- With limits that are high enough, any derivation is read. -/
theorem Derives.unique {d d' : Nat} {ts : List Token} {e e' : Expr}
    (h : Derives (.chain .sum) d ts e) (h' : Derives (.chain .sum) d' ts e') : e = e' := by
  let limits : Limits :=
    ⟨max (max d e.nesting) (max d' e'.nesting), max e.height e'.height⟩
  have he : parse limits ts = .ok e := parse_eq_ok_iff.mpr ⟨⟨d, by grind, h⟩, by grind, by grind⟩
  have he' : parse limits ts = .ok e' :=
    parse_eq_ok_iff.mpr ⟨⟨d', by grind, h'⟩, by grind, by grind⟩
  exact Except.ok.inj (he.symm.trans he')

end Stepwise.Expr
