import Stepwise.Expr.Value
import Stepwise.Proofs.Expr.Acceptance

namespace Stepwise.Expr

/-- Two outcomes are refused for the same reason, or succeed with related results, unless one of
them is refused because it is too deep. -/
inductive Agree {α : Type} (R : α → α → Prop) : Except Refusal α → Except Refusal α → Prop
  | ok {a b : α} : R a b → Agree R (.ok a) (.ok b)
  | refused (r : Refusal) : Agree R (.error r) (.error r)
  | deepLeft (limit : Nat) (y : Except Refusal α) : Agree R (.error (.tooDeep limit)) y
  | deepRight (x : Except Refusal α) (limit : Nat) : Agree R x (.error (.tooDeep limit))

theorem Agree.bind {α β : Type} {R : α → α → Prop} {S : β → β → Prop} {x y : Except Refusal α}
    {f g : α → Except Refusal β} (h : Agree R x y) (hfg : ∀ a b, R a b → Agree S (f a) (g b)) :
    Agree S (x >>= f) (y >>= g) := by
  cases h with
  | ok hab => exact hfg _ _ hab
  | refused r => exact .refused r
  | deepLeft limit => exact .deepLeft limit _
  | deepRight x limit => exact .deepRight _ limit

theorem Agree.bounded {α : Type} {R : α → α → Prop} {x y : Except Refusal α} (h : Agree R x y)
    (p q : Prop) [Decidable p] [Decidable q] (limit : Nat) :
    Agree R (if p then .error (.tooDeep limit) else x)
      (if q then .error (.tooDeep limit) else y) := by
  split
  · exact .deepLeft limit _
  · split
    · exact .deepRight _ limit
    · exact h

/-- The same tokens, but for what follows one opening parenthesis. -/
inductive Alike (inner inner' : List Token) : List Token → List Token → Prop
  | same (ts : List Token) : Alike inner inner' ts ts
  | group : Alike inner inner' (.opening :: inner) (.opening :: inner')
  | cons (t : Token) {ts us : List Token} :
      Alike inner inner' ts us → Alike inner inner' (t :: ts) (t :: us)

/-- Expressions of the same value, read from the front of tokens that go on alike. -/
def SameReading (inner inner' : List Token) (x y : Expr × List Token) : Prop :=
  x.1.value = y.1.value ∧ Alike inner inner' x.2 y.2

def Respects (inner inner' : List Token) (read : Reader) : Prop :=
  ∀ ts us, Alike inner inner' ts us → Agree (SameReading inner inner') (read ts) (read us)

variable {limits : Limits} {inner inner' ts us : List Token}

theorem Alike.cases_head (h : Alike inner inner' ts us) : ts = [] ∧ us = [] ∨
    ∃ t ts' us', ts = t :: ts' ∧ us = t :: us' ∧
      (Alike inner inner' ts' us' ∨ t = .opening ∧ ts' = inner ∧ us' = inner') := by
  cases h with
  | same =>
    cases ts with
    | nil => exact Or.inl ⟨rfl, rfl⟩
    | cons t ts => exact Or.inr ⟨t, ts, ts, rfl, rfl, Or.inl (.same ts)⟩
  | group => exact Or.inr ⟨.opening, inner, inner', rfl, rfl, Or.inr ⟨rfl, rfl, rfl⟩⟩
  | cons t h => exact Or.inr ⟨t, _, _, rfl, rfl, Or.inl h⟩

theorem Alike.append (A : List Token) (h : Alike inner inner' ts us) :
    Alike inner inner' (A ++ ts) (A ++ us) := by
  induction A with
  | nil => exact h
  | cons t A ih => exact .cons t ih

section Value

variable {a a' b b' : Expr}

theorem value_neg_congr (h : a.value = a'.value) : (neg a).value = (neg a').value := by
  rw [value, value, h]

theorem value_call_congr (f : NamedFunction) (h : a.value = a'.value) :
    (call f a).value = (call f a').value := by
  rw [value, value, h]

theorem value_binary_congr (op : Operator) (ha : a.value = a'.value) (hb : b.value = b'.value) :
    (binary op a b).value = (binary op a' b').value := by
  rw [value, value, ha, hb]

end Value

theorem respects_chainFrom {op? : Token → Option Operator} {operand : Reader}
    (hop : op? .opening = none) (ho : Respects inner inner' operand) (room : Nat) {a b : Expr}
    (hvalue : a.value = b.value) (h : Alike inner inner' ts us) :
    Agree (SameReading inner inner') (chainFrom limits op? operand room a ts)
      (chainFrom limits op? operand room b us) := by
  induction room generalizing a b ts us with
  | zero =>
    obtain ⟨rfl, rfl⟩ | ⟨t, ts', us', rfl, rfl, htail⟩ := h.cases_head
    · rw [chainFrom, chainFrom]
      exact .ok ⟨hvalue, .same []⟩
    · rw [chainFrom, chainFrom]
      cases op? t with
      | none => exact .ok ⟨hvalue, h⟩
      | some op => exact .refused _
  | succ room ih =>
    obtain ⟨rfl, rfl⟩ | ⟨t, ts', us', rfl, rfl, htail⟩ := h.cases_head
    · rw [chainFrom, chainFrom]
      exact .ok ⟨hvalue, .same []⟩
    · rw [chainFrom, chainFrom]
      cases hopt : op? t with
      | none => exact .ok ⟨hvalue, h⟩
      | some op =>
        obtain htail | ⟨rfl, -, -⟩ := htail
        · refine (ho _ _ htail).bind ?_
          rintro ⟨a', ts''⟩ ⟨b', us''⟩ ⟨hright, hrest⟩
          exact ih (value_binary_congr op hvalue hright) hrest
        · rw [hop] at hopt
          cases hopt

theorem respects_chain {c : Chain} {operand : Reader} (ho : Respects inner inner' operand) :
    Respects inner inner' (chain limits c.operator? operand) := by
  intro ts us h
  refine (ho ts us h).bind ?_
  rintro ⟨a, ts'⟩ ⟨b, us'⟩ ⟨hvalue, hrest⟩
  refine respects_chainFrom ?_ ho _ hvalue hrest
  cases c <;> rfl

section Signed

variable {signed : Reader} (hs : Respects inner inner' signed)
include hs

theorem respects_sum : Respects inner inner' (sum limits signed) :=
  respects_chain (c := .sum) (respects_chain (c := .product) hs)

theorem respects_group : Respects inner inner' (Expr.group limits signed) := by
  intro ts us h
  refine (respects_sum hs ts us h).bind ?_
  rintro ⟨a, ts'⟩ ⟨b, us'⟩ ⟨hvalue, hrest : Alike inner inner' ts' us'⟩
  obtain ⟨rfl, rfl⟩ | ⟨t, ts'', us'', rfl, rfl, htail⟩ := hrest.cases_head
  · exact .refused _
  · cases t with
    | closing =>
      obtain htail | ⟨h, -⟩ := htail
      · exact .ok ⟨hvalue, htail⟩
      · cases h
    | _ => exact .refused _

variable (hgroup : Agree (SameReading inner inner') (Expr.group limits signed inner)
  (Expr.group limits signed inner'))
include hgroup

/-- After an opening parenthesis, the two go on alike or are inside the group that differs. -/
theorem agree_opened (h : Alike inner inner' ts us ∨ ts = inner ∧ us = inner') :
    Agree (SameReading inner inner') (Expr.group limits signed ts)
      (Expr.group limits signed us) := by
  obtain h | ⟨rfl, rfl⟩ := h
  · exact respects_group hs ts us h
  · exact hgroup

theorem respects_named (name : Text) : Respects inner inner' (named limits signed name) := by
  intro ts us h
  rw [named, named]
  cases NamedConstant.ofName? name with
  | some c => exact .ok ⟨rfl, h⟩
  | none =>
    cases NamedFunction.ofName? name with
    | none => exact .refused _
    | some f =>
      obtain ⟨rfl, rfl⟩ | ⟨t, ts', us', rfl, rfl, htail⟩ := h.cases_head
      · exact .refused _
      · cases t with
        | opening =>
          refine (agree_opened hs hgroup (htail.imp_right And.right)).bind ?_
          rintro ⟨a, ts''⟩ ⟨b, us''⟩ ⟨hvalue, hrest⟩
          exact .ok ⟨value_call_congr f hvalue, hrest⟩
        | _ => exact .refused _

theorem respects_atom : Respects inner inner' (atom limits signed) := by
  intro ts us h
  obtain ⟨rfl, rfl⟩ | ⟨t, ts', us', rfl, rfl, htail⟩ := h.cases_head
  · exact .refused _
  · cases t with
    | number numeral =>
      obtain htail | ⟨h, -⟩ := htail
      · rw [atom, atom]
        cases Decimal.finite? numeral with
        | none => exact .refused _
        | some v => exact .ok ⟨rfl, htail⟩
      · cases h
    | name letters =>
      obtain htail | ⟨h, -⟩ := htail
      · exact respects_named hs hgroup letters _ _ htail
      · cases h
    | opening => exact agree_opened hs hgroup (htail.imp_right And.right)
    | _ => exact .refused _

theorem respects_power : Respects inner inner' (power limits signed) := by
  intro ts us h
  refine (respects_atom hs hgroup ts us h).bind ?_
  rintro ⟨a, ts'⟩ ⟨b, us'⟩ ⟨hvalue, hrest : Alike inner inner' ts' us'⟩
  obtain ⟨rfl, rfl⟩ | ⟨t, ts'', us'', rfl, rfl, htail⟩ := hrest.cases_head
  · exact .ok ⟨hvalue, .same []⟩
  · cases t with
    | power =>
      obtain htail | ⟨h, -⟩ := htail
      · refine (hs _ _ htail).bind ?_
        rintro ⟨a', ts'''⟩ ⟨b', us'''⟩ ⟨hexponent, hrest⟩
        exact .ok ⟨value_binary_congr .pow hvalue hexponent, hrest⟩
      · cases h
    | _ => exact .ok ⟨hvalue, hrest⟩

end Signed

/-- Readers treat a group as an opaque operand: they agree wherever they meet it, if they agree on
what is inside. -/
theorem respects_signedOperand
    (hgroup : ∀ levels, Agree (SameReading inner inner')
      (Expr.group limits (signedOperand limits levels) inner)
      (Expr.group limits (signedOperand limits levels) inner')) (levels : Nat) :
    Respects inner inner' (signedOperand limits levels) := by
  induction levels with
  | zero =>
    intro ts us _
    rw [signedOperand, signedOperand]
    exact .refused _
  | succ levels ih =>
    intro ts us h
    obtain ⟨rfl, rfl⟩ | ⟨t, ts', us', rfl, rfl, htail⟩ := h.cases_head
    · exact respects_power ih (hgroup levels) _ _ h
    · by_cases hminus : t = .minus
      · subst hminus
        obtain htail | ⟨h, -⟩ := htail
        · rw [signedOperand, signedOperand]
          refine (ih _ _ htail).bind ?_
          rintro ⟨a, ts''⟩ ⟨b, us''⟩ ⟨hvalue, hrest⟩
          exact .ok ⟨value_neg_congr hvalue, hrest⟩
        · cases h
      · rw [signedOperand_of_ne_minus hminus, signedOperand_of_ne_minus hminus]
        exact respects_power ih (hgroup levels) _ _ h

theorem agree_parse
    (hgroup : ∀ levels, Agree (SameReading inner inner')
      (Expr.group limits (signedOperand limits levels) inner)
      (Expr.group limits (signedOperand limits levels) inner'))
    (h : Alike inner inner' ts us) :
    Agree (fun a b => a.value = b.value) (parse limits ts) (parse limits us) := by
  rw [parse, parse]
  obtain ⟨rfl, rfl⟩ | ⟨t, ts', us', rfl, rfl, -⟩ := h.cases_head
  · exact .refused _
  · refine (respects_sum (respects_signedOperand hgroup _) _ _ h).bind ?_
    rintro ⟨a, ts''⟩ ⟨b, us''⟩ ⟨hvalue, hrest : Alike inner inner' ts'' us''⟩
    obtain ⟨rfl, rfl⟩ | ⟨t, _, _, rfl, rfl, -⟩ := hrest.cases_head
    · apply Agree.bounded
      apply Agree.bounded
      exact .ok hvalue
    · exact .refused _

theorem agree_of_reads {α : Type} {R : α → α → Prop} {P Q : Prop} {x y : Except Refusal α} {a b : α}
    (hx : ReadsUnless P x (.ok a)) (hy : ReadsUnless Q y (.ok b)) (hab : R a b) : Agree R x y := by
  obtain rfl | ⟨-, limit, rfl⟩ := hx
  · obtain rfl | ⟨-, limit, rfl⟩ := hy
    · exact .ok hab
    · exact .deepRight _ limit
  · exact .deepLeft limit y

/-- Groups agree around expressions of the same value, if these are read on their own. -/
theorem agree_group {U V B : List Token} {e e' : Expr} (hU : parse limits U = .ok e)
    (hV : parse limits V = .ok e') (hvalue : e.value = e'.value) (levels : Nat) :
    Agree (SameReading (U ++ .closing :: B) (V ++ .closing :: B))
      (Expr.group limits (signedOperand limits levels) (U ++ .closing :: B))
      (Expr.group limits (signedOperand limits levels) (V ++ .closing :: B)) := by
  obtain ⟨⟨d, -, he⟩, -⟩ := derives_of_parse hU
  obtain ⟨⟨d', -, he'⟩, -⟩ := derives_of_parse hV
  rw [List.append_cons U, List.append_cons V]
  exact agree_of_reads (reads_group_tokens (he.reads limits levels))
    (reads_group_tokens (he'.reads limits levels)) ⟨hvalue, .same B⟩

end Stepwise.Expr
