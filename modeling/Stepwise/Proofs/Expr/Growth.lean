import Stepwise.Proofs.Expr.Levels

namespace Stepwise.Expr

/-- What one more signed operand can add to the height of a tree: a chain of products, a chain of
sums around it, the function that takes it as its argument and the power that this is raised to. -/
def Limits.growth (limits : Limits) : Nat :=
  2 * (limits.height - 1) + 2

variable {limits : Limits} {levels : Nat}

section Bound

/-- What is read stays below the bound, with some room between. -/
def Bounded (bound room : Nat) (read : Reader) : Prop :=
  ∀ tokens e rest, read tokens = .ok (e, rest) → e.height + room < bound

variable {bound : Nat} {signed : Reader}

theorem Joined.height_lt {op? : Token → Option Operator} {operand : Reader} {room n : Nat}
    {tokens rest : List Token} {e : Expr} (h : Joined op? operand tokens n e rest)
    (ho : Bounded bound room operand) : e.height + room + 1 < bound + n := by
  induction h with
  | first hfirst => exact Nat.succ_lt_succ (ho _ _ _ hfirst)
  | next hleft _ hright ih =>
    have hpos := hleft.pos
    have hright := ho _ _ _ hright
    rw [height_binary]
    omega

/-- A chain takes from the room what it may be long. -/
theorem bounded_chain {op? : Token → Option Operator} {operand : Reader} {room : Nat}
    (ho : Bounded bound (room + (limits.height - 1)) operand) :
    Bounded bound room (chain limits op? operand) := by
  intro tokens e rest h
  obtain ⟨n, hn, hjoined, -⟩ := chain_eq_ok_iff.mp h
  have hlt := hjoined.height_lt ho
  omega

theorem bounded_product (hs : Bounded bound (2 * (limits.height - 1)) signed) :
    Bounded bound (limits.height - 1) (product limits signed) :=
  bounded_chain (by rwa [← Nat.two_mul])

theorem bounded_sum (hs : Bounded bound (2 * (limits.height - 1)) signed) :
    Bounded bound 0 (sum limits signed) :=
  bounded_chain (by rw [Nat.zero_add]; exact bounded_product hs)

theorem bounded_group (hs : Bounded bound (2 * (limits.height - 1)) signed) :
    Bounded bound 0 (group limits signed) :=
  fun tokens e rest h => bounded_sum hs tokens e (.closing :: rest) (group_eq_ok h)

/-- When no signed operand can be read, an atom is still a number or a constant. -/
theorem bounded_atom (hs : Bounded bound (2 * (limits.height - 1)) signed) :
    Bounded (max 2 (bound + 1)) 0 (atom limits signed) := by
  intro tokens e rest h
  cases atom_eq_ok h with
  | number =>
    rw [height_literal]
    omega
  | constant =>
    rw [height_constant]
    omega
  | call _ hgroup =>
    have hargument := bounded_group hs _ _ _ hgroup
    rw [height_call]
    omega
  | group hgroup =>
    have hgroup := bounded_group hs _ _ _ hgroup
    omega

theorem bounded_power (hs : Bounded bound (2 * (limits.height - 1)) signed) :
    Bounded (bound + 2) 0 (power limits signed) := by
  intro tokens e rest h
  obtain hbase | ⟨base, us, exponent, hbase, hexponent, rfl⟩ := power_eq_ok h
  · have hbase := bounded_atom hs _ _ _ hbase
    omega
  · have hbase := bounded_atom hs _ _ _ hbase
    have hexponent := hs _ _ _ hexponent
    have hpos := exponent.height_pos
    rw [height_binary]
    omega

theorem bounded_signedOperand (levels : Nat) :
    Bounded (limits.growth * levels) (2 * (limits.height - 1)) (signedOperand limits levels) := by
  induction levels with
  | zero =>
    intro tokens e rest h
    rw [signedOperand] at h
    cases h
  | succ levels ih =>
    intro tokens e rest h
    have hgrowth : limits.growth * (levels + 1) =
        limits.growth * levels + 2 + 2 * (limits.height - 1) := by
      rw [Nat.mul_succ, Limits.growth]
      omega
    obtain ⟨us, operand, rfl, hoperand, rfl⟩ | hpower := signedOperand_eq_ok h
    · have hoperand := ih _ _ _ hoperand
      rw [height_neg]
      omega
    · have hpower := bounded_power ih _ _ _ hpower
      omega

/-- A reader that has given up a level for each signed operand around it keeps to the bound of the
whole. -/
theorem height_lt_of_reader {p : Phrase} (hlevels : levels + p.opens ≤ limits.nesting)
    {tokens rest : List Token} {e : Expr} (h : reader limits levels p tokens = .ok (e, rest)) :
    e.height < limits.growth * limits.nesting := by
  have hs : Bounded (limits.growth * levels) (2 * (limits.height - 1))
      (signedOperand limits levels) := bounded_signedOperand levels
  have hle : limits.growth * levels + limits.growth * p.opens ≤ limits.growth * limits.nesting := by
    rw [← Nat.mul_add]
    exact Nat.mul_le_mul_left _ hlevels
  have hgrowth : 2 ≤ limits.growth := Nat.le_add_left _ _
  match p with
  | .chain .sum =>
    have hsum := bounded_sum hs _ _ _ h
    omega
  | .chain .product =>
    have hproduct := bounded_product hs _ _ _ h
    omega
  | .signed =>
    have hsigned := hs _ _ _ h
    omega
  | .power =>
    have hpower := bounded_power hs _ _ _ h
    rw [Phrase.opens] at hle
    omega
  | .atom =>
    have hatom := bounded_atom hs _ _ _ h
    rw [Phrase.opens] at hle
    omega

/-- Every step down a tree takes a token. -/
theorem height_le_of_reader {p : Phrase} {tokens rest : List Token} {e : Expr}
    (h : reader limits levels p tokens = .ok (e, rest)) :
    e.height + rest.length ≤ tokens.length := by
  have hs : Follows .signed levels (signedOperand limits levels) := follows_signedOperand levels
  have hfollows : Follows p levels (reader limits levels p) := by
    cases p with
    | chain c => exact follows_reader levels c
    | signed => exact hs
    | power => exact follows_power hs
    | atom => exact follows_atom hs
  obtain ⟨d, -, ts, rfl, hderives⟩ := hfollows _ _ _ h
  rw [List.length_append]
  exact Nat.add_le_add_right hderives.le_length.2 _

end Bound

section Tower

/-- The tokens are read as the tree, whatever follows that does not go on. -/
def Takes (limits : Limits) (levels : Nat) (p : Phrase) (ts : List Token) (e : Expr) : Prop :=
  ∀ rest, EndsBefore p rest → reader limits levels p (ts ++ rest) = .ok (e, rest)

def one : Token :=
  .number ['1']

/-- So many more operands of a chain, all of them the number one. -/
def links (t : Token) : Nat → List Token
  | 0 => []
  | n + 1 => t :: one :: links t n

/-- The tree that these operands make of what stands before them. -/
def grown (op : Operator) : Nat → Expr → Expr
  | 0, e => e
  | n + 1, e => grown op n (binary op e (literal 1))

theorem height_grown (op : Operator) (n : Nat) (e : Expr) :
    (grown op n e).height = e.height + n := by
  induction n generalizing e with
  | zero => rfl
  | succ n ih =>
    have hpos := e.height_pos
    rw [grown, ih, height_binary, height_literal]
    omega

theorem takes_one (hlevels : 0 < levels) (hheight : 0 < limits.height) :
    Takes limits levels .signed [one] (literal 1) := by
  have hvalue : Decimal.finite? ['1'] = some 1 := by decide +kernel
  exact fun rest => (Derives.number hvalue).base.plain.reads_of_le hlevels (by simpa)

theorem Takes.toOperand {c : Chain} {ts : List Token} {e : Expr}
    (h : Takes limits levels .signed ts e) : Takes limits levels c.operand ts e := by
  cases c with
  | product => exact h
  | sum =>
    intro rest hrest
    rw [Chain.operand, reader_chain]
    exact (ok_of_bind (h rest hrest.operand) _).trans (chainFrom_end hrest _ _ _)

variable {c : Chain} {op : Operator} {t : Token}

theorem endsBefore_links (ht : c.operator? t = some op) (n : Nat) {rest : List Token}
    (hrest : EndsBefore (.chain c) rest) : EndsBefore c.operand (links t n ++ rest) := by
  cases n with
  | zero => exact hrest.operand
  | succ n => exact endsBefore_operator ht _

theorem chainFrom_links (ht : c.operator? t = some op)
    (hone : Takes limits levels .signed [one] (literal 1)) {n room : Nat} (hn : n ≤ room)
    (left : Expr) {rest : List Token} (hrest : EndsBefore (.chain c) rest) :
    chainFrom limits c.operator? (reader limits levels c.operand) room left (links t n ++ rest) =
      .ok (grown op n left, rest) := by
  induction n generalizing room left with
  | zero => exact chainFrom_end hrest _ _ _
  | succ n ih =>
    obtain ⟨room, rfl⟩ := Nat.exists_eq_succ_of_ne_zero (Nat.ne_zero_of_lt hn)
    have hnext := hone.toOperand _ (endsBefore_links ht n hrest)
    rw [links, List.cons_append, List.cons_append, chainFrom, ht]
    exact (ok_of_bind hnext _).trans (ih (Nat.le_of_succ_le_succ hn) _)

/-- A chain counts only its own operands, however high the first of them is. -/
theorem takes_links (ht : c.operator? t = some op)
    (hone : Takes limits levels .signed [one] (literal 1)) {n : Nat} (hn : n < limits.height)
    {ts : List Token} {e : Expr} (h : Takes limits levels c.operand ts e) :
    Takes limits levels (.chain c) (ts ++ links t n) (grown op n e) := by
  intro rest hrest
  have hfirst := h _ (endsBefore_links ht n hrest)
  rw [List.append_assoc, reader_chain]
  exact (ok_of_bind hfirst _).trans (chainFrom_links ht hone (Nat.le_sub_one_of_lt hn) e hrest)

/-- A chain of products as long as it may be, as the first operand of a chain of sums. -/
def layer (limits : Limits) (ts : List Token) : List Token :=
  ts ++ links .times (limits.height - 1) ++ links .plus (limits.height - 1)

def layered (limits : Limits) (e : Expr) : Expr :=
  grown .add (limits.height - 1) (grown .mul (limits.height - 1) e)

theorem height_layered (limits : Limits) (e : Expr) :
    (layered limits e).height = e.height + 2 * (limits.height - 1) := by
  rw [layered, height_grown, height_grown]
  omega

theorem takes_layer (hlevels : 0 < levels) (hheight : 0 < limits.height) {ts : List Token}
    {e : Expr} (h : Takes limits levels .signed ts e) :
    Takes limits levels (.chain .sum) (layer limits ts) (layered limits e) := by
  have hone := takes_one hlevels hheight
  have hlt := Nat.sub_one_lt_of_lt hheight
  exact takes_links (c := .sum) rfl hone hlt (takes_links (c := .product) rfl hone hlt h)

/-- Layers inside one another, each the argument of a function that is raised to a power. -/
def tower (limits : Limits) : Nat → List Token
  | 0 => [one]
  | n + 1 => .name NamedFunction.sin.name :: .opening :: (layer limits (tower limits n) ++
      [.closing, .power, one])

def towering (limits : Limits) : Nat → Expr
  | 0 => literal 1
  | n + 1 => binary .pow (call .sin (layered limits (towering limits n))) (literal 1)

theorem height_towering (hheight : 0 < limits.height) (n : Nat) :
    (layered limits (towering limits n)).height + 1 = limits.growth * (n + 1) := by
  induction n with
  | zero =>
    rw [height_layered, towering, height_literal, Limits.growth]
    omega
  | succ n ih =>
    rw [height_layered, towering, height_binary, height_call, height_literal, Nat.mul_succ, ← ih,
      Limits.growth]
    omega

theorem takes_tower (hheight : 0 < limits.height) (n : Nat) :
    Takes limits (n + 1) .signed (tower limits n) (towering limits n) := by
  induction n with
  | zero => exact takes_one Nat.one_pos hheight
  | succ n ih =>
    intro rest hrest
    have hlayer := takes_layer n.succ_pos hheight ih (.closing :: .power :: one :: rest)
      (endsBefore_closing _ _)
    have hgroup : group limits (signedOperand limits (n + 1))
        (layer limits (tower limits n) ++ .closing :: .power :: one :: rest) =
          .ok (layered limits (towering limits n), .power :: one :: rest) := ok_of_bind hlayer _
    have hsin := NamedFunction.ofName?_name .sin
    have hatom : atom limits (signedOperand limits (n + 1)) (tower limits (n + 1) ++ rest) =
        .ok (call .sin (layered limits (towering limits n)), .power :: one :: rest) := by
      rw [tower, List.cons_append, List.cons_append, List.append_assoc, atom, named,
        ofName?_constant_eq_none hsin, hsin]
      exact ok_of_bind hgroup _
    have hexponent : signedOperand limits (n + 1) (one :: rest) = .ok (literal 1, rest) :=
      takes_one n.succ_pos hheight rest hrest
    rw [reader, tower, List.cons_append, signedOperand_of_ne_minus (by simp)]
    exact (ok_of_bind hatom _).trans (ok_of_bind hexponent _)

end Tower

/-- What follows an expression is not looked at before the whole of it has been read. -/
theorem parse_of_reader {tokens rest : List Token} {t : Token} {e : Expr}
    (h : reader limits limits.nesting (.chain .sum) tokens = .ok (e, t :: rest)) :
    parse limits tokens = .error (.unexpectedToken t) := by
  have hne : tokens ≠ [] := by
    rintro rfl
    have hlength := height_le_of_reader h
    rw [List.length_nil, List.length_cons] at hlength
    omega
  rw [parse, if_neg (by simpa using hne)]
  exact ok_of_bind h _

/-- Each level of signed operands lets a tree grow by two chains, and by no more. This bounds every
tree that a reader builds in the course of parsing, where a level is taken for each signed operand
around it, and some input that is refused in the end reaches the bound. A tree is never higher than
it has tokens, and a tree that is accepted is not higher than the limit. -/
theorem height_of_trees_read (limits : Limits) :
    (∀ levels p tokens e rest, levels + p.opens ≤ limits.nesting →
      reader limits levels p tokens = .ok (e, rest) →
        e.height < limits.growth * limits.nesting ∧ e.height + rest.length ≤ tokens.length) ∧
    (∀ levels tokens e rest, levels < limits.nesting →
      group limits (signedOperand limits levels) tokens = .ok (e, rest) →
        e.height < limits.growth * limits.nesting ∧ e.height + rest.length < tokens.length) ∧
    (0 < limits.height → 0 < limits.nesting → ∃ tokens e,
      reader limits limits.nesting (.chain .sum) tokens = .ok (e, [.closing]) ∧
        e.height + 1 = limits.growth * limits.nesting ∧
        parse limits tokens = .error (.unexpectedToken .closing)) ∧
    ∀ tokens e, parse limits tokens = .ok e → e.height ≤ limits.height := by
  refine ⟨fun levels p tokens e rest hlevels h => ⟨height_lt_of_reader hlevels h,
    height_le_of_reader h⟩, ?_, ?_, fun tokens e h => (derives_of_parse h).2.1⟩
  · intro levels tokens e rest hlevels h
    have hs : Follows .signed levels (signedOperand limits levels) := follows_signedOperand levels
    have hatom : reader limits levels .atom (.opening :: tokens) = .ok (e, rest) := h
    obtain ⟨d, -, ts, rfl, hderives⟩ := follows_group hs h
    have hlength := hderives.le_length.2
    refine ⟨height_lt_of_reader hlevels hatom, ?_⟩
    rw [List.length_append, List.length_cons]
    omega
  · intro hheight hnesting
    obtain ⟨n, hn⟩ := Nat.exists_eq_succ_of_ne_zero (Nat.ne_zero_of_lt hnesting)
    have hread := takes_layer n.succ_pos hheight (takes_tower hheight n) [.closing]
      (endsBefore_closing _ _)
    rw [← hn] at hread
    refine ⟨_, _, hread, ?_, parse_of_reader hread⟩
    rw [hn]
    exact height_towering hheight n

/-- With the limits in force, trees of a height of more than a million are built. -/
example : standardLimits.growth * standardLimits.nesting = 1024000 := rfl

/-- One chain in another already makes a tree that is higher than the two limits together, and the
closing parenthesis after it is what the input is refused for. -/
theorem layer_of_ones_is_higher :
    let tokens := layer standardLimits [one] ++ [.closing]
    let e := layered standardLimits (literal 1)
    reader standardLimits standardLimits.nesting (.chain .sum) tokens = .ok (e, [.closing]) ∧
      parse standardLimits tokens = .error (.unexpectedToken .closing) ∧
      standardLimits.height + standardLimits.nesting < e.height := by
  intro tokens e
  have hread : reader standardLimits standardLimits.nesting (.chain .sum) tokens =
      .ok (e, [.closing]) :=
    takes_layer (by decide) (by decide) (takes_one (by decide) (by decide)) [.closing]
      (endsBefore_closing _ _)
  refine ⟨hread, parse_of_reader hread, ?_⟩
  rw [height_layered, height_literal]
  decide

end Stepwise.Expr
