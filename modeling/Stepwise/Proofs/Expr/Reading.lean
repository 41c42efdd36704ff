import Stepwise.Proofs.Expr.Grammar

namespace Stepwise.Expr

variable {limits : Limits} {levels : Nat}

/-- The outcome is the expected one, or else the input is too deep and refused for that. -/
def ReadsUnless {α : Type} (tooDeep : Prop) (outcome expected : Except Refusal α) : Prop :=
  outcome = expected ∨ tooDeep ∧ ∃ limit, outcome = .error (.tooDeep limit)

theorem ReadsUnless.bind {α β : Type} {P Q : Prop} {x : Except Refusal α} {a : α}
    {f : α → Except Refusal β} {y : Except Refusal β}
    (hx : ReadsUnless P x (.ok a)) (hPQ : P → Q) (hf : ReadsUnless Q (f a) y) :
    ReadsUnless Q (x >>= f) y := by
  obtain rfl | ⟨hP, limit, rfl⟩ := hx
  · exact hf
  · exact Or.inr ⟨hPQ hP, limit, rfl⟩

theorem ReadsUnless.refl {α : Type} {P : Prop} (x : Except Refusal α) : ReadsUnless P x x :=
  Or.inl rfl

theorem ReadsUnless.mono {α : Type} {P Q : Prop} {x y : Except Refusal α}
    (h : ReadsUnless P x y) (hPQ : P → Q) : ReadsUnless Q x y :=
  h.imp_right fun ⟨hP, hx⟩ => ⟨hPQ hP, hx⟩

theorem ReadsUnless.eq_of_not {α : Type} {P : Prop} {x y : Except Refusal α}
    (h : ReadsUnless P x y) (hP : ¬P) : x = y :=
  h.resolve_right fun ⟨h, _⟩ => hP h

/-- A phrase needs more levels than there are, or a higher tree than is allowed. -/
def Beyond (limits : Limits) (levels d : Nat) (e : Expr) : Prop :=
  levels < d ∨ limits.height < e.height

theorem Beyond.left {d : Nat} {op : Operator} {a b : Expr} (h : Beyond limits levels d a)
    (d' : Nat) : Beyond limits levels (max d d') (binary op a b) := by
  simp only [Beyond, height_binary] at h ⊢
  omega

theorem Beyond.right {d' : Nat} {op : Operator} {a b : Expr} (h : Beyond limits levels d' b)
    (d : Nat) : Beyond limits levels (max d d') (binary op a b) := by
  simp only [Beyond, height_binary] at h ⊢
  omega

/-- What reading a phrase comes to, whatever follows it. A chain of `n` operands is still open:
there is room for the operands that are left of the allowed height. -/
def Reads (limits : Limits) (levels d : Nat) (ts : List Token) (e : Expr) : Phrase → Prop
  | .chain c => ∀ rest, EndsBefore c.operand rest → ∃ n, 0 < n ∧ n ≤ e.height ∧
      ReadsUnless (Beyond limits levels d e) (reader limits levels (.chain c) (ts ++ rest))
        (chainFrom limits c.operator? (reader limits levels c.operand) (limits.height - n) e rest)
  | p => ∀ rest, EndsBefore p rest →
      ReadsUnless (Beyond limits levels d e) (reader limits levels p (ts ++ rest)) (.ok (e, rest))

theorem Reads.atEnd {d : Nat} {ts rest : List Token} {e : Expr} {p : Phrase}
    (h : Reads limits levels d ts e p) (hrest : EndsBefore p rest) :
    ReadsUnless (Beyond limits levels d e) (reader limits levels p (ts ++ rest))
      (.ok (e, rest)) := by
  cases p with
  | chain c =>
    obtain ⟨n, -, -, hn⟩ := h rest hrest.operand
    rwa [chainFrom_end hrest] at hn
  | signed | power | atom => exact h rest hrest

theorem reads_operand {c : Chain} {d : Nat} {ts : List Token} {e : Expr}
    (h : Reads limits levels d ts e c.operand) : Reads limits levels d ts e (.chain c) := by
  intro rest hrest
  refine ⟨1, Nat.one_pos, e.height_pos, ?_⟩
  rw [reader_chain]
  exact (h.atEnd hrest).bind id (.refl _)

theorem reads_extend {c : Chain} {op : Operator} {t : Token} {d d' : Nat} {ts us : List Token}
    {a b : Expr} (ha : Reads limits levels d ts a (.chain c)) (ht : c.operator? t = some op)
    (hb : Reads limits levels d' us b c.operand) :
    Reads limits levels (max d d') (ts ++ t :: us) (binary op a b) (.chain c) := by
  intro rest hrest
  obtain ⟨n, hn0, hn, hread⟩ := ha (t :: us ++ rest) (endsBefore_operator ht _)
  have hheight : n + 1 ≤ (binary op a b).height := by
    rw [height_binary]
    omega
  refine ⟨n + 1, Nat.succ_pos n, hheight, ?_⟩
  rw [List.append_assoc]
  obtain hread | ⟨h, limit, herr⟩ := hread
  · rw [hread, List.cons_append, chainFrom, ht]
    -- No room is left only if the chain is as long as the tree may be high.
    cases hroom : limits.height - n with
    | zero => exact Or.inr ⟨Or.inr (by omega), limits.height, rfl⟩
    | succ room =>
      have : limits.height - (n + 1) = room := by omega
      rw [this]
      exact (hb.atEnd hrest).bind (Beyond.right · d) (.refl _)
  · exact Or.inr ⟨h.left d', limit, herr⟩

theorem reads_minus {d : Nat} {ts : List Token} {e : Expr}
    (h : ∀ levels, Reads limits levels d ts e .signed) (levels : Nat) :
    Reads limits levels (d + 1) (.minus :: ts) (neg e) .signed := by
  intro rest hrest
  cases levels with
  | zero => exact Or.inr ⟨Or.inl (Nat.succ_pos d), limits.nesting, rfl⟩
  | succ levels =>
    have hbeyond : Beyond limits levels d e → Beyond limits (levels + 1) (d + 1) (neg e) := by
      simp only [Beyond, height_neg]
      omega
    exact ((h levels).atEnd hrest).bind hbeyond (.refl _)

theorem Derives.power_ne_minus {d : Nat} {ts : List Token} {e : Expr} (h : Derives .power d ts e) :
    ∃ t us, ts = t :: us ∧ t ≠ .minus := by
  have hatom {d : Nat} {ts : List Token} {e : Expr} (h : Derives .atom d ts e) :
      ∃ t us, ts = t :: us ∧ t ≠ .minus := by
    cases h <;> exact ⟨_, _, rfl, by simp⟩
  cases h with
  | base h => exact hatom h
  | raised h _ =>
    obtain ⟨t, us, rfl, ht⟩ := hatom h
    exact ⟨t, _, rfl, ht⟩

theorem signedOperand_of_ne_minus {t : Token} (ht : t ≠ .minus) (rest : List Token) :
    signedOperand limits (levels + 1) (t :: rest) =
      power limits (signedOperand limits levels) (t :: rest) := by
  rw [signedOperand]
  intro rest' h
  exact ht (List.cons.inj h).1

theorem reads_plain {d : Nat} {ts : List Token} {e : Expr} (hd : Derives .power d ts e)
    (h : ∀ levels, Reads limits levels d ts e .power) (levels : Nat) :
    Reads limits levels (d + 1) ts e .signed := by
  intro rest hrest
  cases levels with
  | zero =>
    refine Or.inr ⟨Or.inl (Nat.succ_pos d), limits.nesting, ?_⟩
    rw [reader, signedOperand]
  | succ levels =>
    obtain ⟨t, us, rfl, ht⟩ := hd.power_ne_minus
    rw [reader, List.cons_append, signedOperand_of_ne_minus ht]
    exact ((h levels).atEnd hrest).mono (Or.imp_left Nat.succ_lt_succ)

theorem reads_base {d : Nat} {ts : List Token} {e : Expr} (h : Reads limits levels d ts e .atom) :
    Reads limits levels d ts e .power := by
  intro rest hrest
  refine (h rest fun _ _ => rfl).bind id ?_
  cases rest with
  | nil => exact .refl _
  | cons t rest =>
    have ht : t ≠ .power := by simpa [Phrase.goesOn] using endsBefore_cons.mp hrest
    cases t with
    | power => exact absurd rfl ht
    | _ => exact .refl _

theorem reads_raised {d d' : Nat} {ts us : List Token} {a b : Expr}
    (ha : Reads limits levels d ts a .atom) (hb : Reads limits levels d' us b .signed) :
    Reads limits levels (max d d') (ts ++ .power :: us) (binary .pow a b) .power := by
  intro rest hrest
  rw [List.append_assoc]
  refine (ha (.power :: us ++ rest) fun _ _ => rfl).bind (Beyond.left · d') ?_
  exact (hb rest hrest).bind (Beyond.right · d) (.refl _)

theorem reads_group_tokens {d : Nat} {ts rest : List Token} {e : Expr}
    (h : Reads limits levels d ts e (.chain .sum)) :
    ReadsUnless (Beyond limits levels d e)
      (Expr.group limits (signedOperand limits levels) (ts ++ [.closing] ++ rest))
      (.ok (e, rest)) := by
  rw [List.append_assoc]
  exact (h.atEnd (endsBefore_closing _ rest)).bind id (.refl _)

theorem ofName?_constant_eq_none {t : Text} {f : NamedFunction}
    (h : NamedFunction.ofName? t = some f) : NamedConstant.ofName? t = none := by
  rw [NamedFunction.eq_name_of_ofName? h]
  cases f <;> decide

theorem reads_call {t : Text} {f : NamedFunction} {d : Nat} {ts : List Token} {e : Expr}
    (hf : NamedFunction.ofName? t = some f) (h : Reads limits levels d ts e (.chain .sum)) :
    Reads limits levels d (.name t :: .opening :: (ts ++ [.closing])) (.call f e) .atom := by
  intro rest _
  have hbeyond : Beyond limits levels d e → Beyond limits levels d (.call f e) := by
    simp only [Beyond, height_call]
    omega
  simp only [reader, List.cons_append, atom, named, ofName?_constant_eq_none hf, hf]
  exact (reads_group_tokens h).bind hbeyond (.refl _)

/-- Reading follows the grammar. It stops early only before a phrase that is too deep, since a
chain needs a tree as high as the chain is long. -/
theorem Derives.reads {p : Phrase} {d : Nat} {ts : List Token} {e : Expr} (h : Derives p d ts e)
    (limits : Limits) (levels : Nat) : Reads limits levels d ts e p := by
  induction h generalizing levels with
  | operand _ ih => exact reads_operand (ih levels)
  | extend _ ht _ iha ihb => exact reads_extend (iha levels) ht (ihb levels)
  | minus _ ih => exact reads_minus ih levels
  | plain h ih => exact reads_plain h ih levels
  | base _ ih => exact reads_base (ih levels)
  | raised _ _ iha ihb => exact reads_raised (iha levels) (ihb levels)
  | number hv =>
    intro rest _
    simp only [reader, List.cons_append, List.nil_append, atom, hv]
    exact .refl _
  | constant hc =>
    intro rest _
    simp only [reader, List.cons_append, List.nil_append, atom, named, hc]
    exact .refl _
  | call hf _ ih => exact reads_call hf (ih levels)
  | group _ ih => exact fun rest _ => reads_group_tokens (ih levels)

end Stepwise.Expr
