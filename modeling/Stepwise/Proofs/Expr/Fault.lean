import Stepwise.Proofs.Expr.Levels

namespace Stepwise.Expr

variable {limits : Limits} {levels : Nat}

/-- The tokens are the beginning of a phrase, or all of it. -/
def Viable (p : Phrase) (ts : List Token) : Prop :=
  ∃ us d e, Derives p d (ts ++ us) e

/-- What stands before a sum in parentheses, when the whole is an atom. -/
inductive Opens : List Token → Prop
  | group : Opens [.opening]
  | call {t : Text} {f : NamedFunction} : NamedFunction.ofName? t = some f →
      Opens [.name t, .opening]

/-- A token with which no atom begins, whatever its text is. -/
def beginsNoAtom : Token → Bool
  | .number _ | .name _ | .opening => false
  | _ => true

/-- The grammar of refusals: a phrase of this kind is refused after these tokens, for a reason that
the next token decides, or the lack of one. -/
inductive Fault : Phrase → List Token → Option Token → Refusal → Prop
  | first {c : Chain} {ts : List Token} {next : Option Token} {r : Refusal} :
      Fault c.operand ts next r → Fault (.chain c) ts next r
  | later {c : Chain} {op : Operator} {t : Token} {d : Nat} {ts us : List Token} {a : Expr}
      {next : Option Token} {r : Refusal} :
      Derives (.chain c) d ts a → c.operator? t = some op → Fault c.operand us next r →
      Fault (.chain c) (ts ++ t :: us) next r
  | minus {ts : List Token} {next : Option Token} {r : Refusal} :
      Fault .signed ts next r → Fault .signed (.minus :: ts) next r
  | plain {ts : List Token} {next : Option Token} {r : Refusal} :
      (ts ++ next.toList).head? ≠ some .minus → Fault .power ts next r → Fault .signed ts next r
  | base {ts : List Token} {next : Option Token} {r : Refusal} :
      Fault .atom ts next r → Fault .power ts next r
  | exponent {d : Nat} {ts us : List Token} {a : Expr} {next : Option Token} {r : Refusal} :
      Derives .atom d ts a → Fault .signed us next r → Fault .power (ts ++ .power :: us) next r
  | ended : Fault .atom [] none .unexpectedEnd
  | malformed {t : Text} :
      Decimal.finite? t = none → Fault .atom [] (some (.number t)) (.malformedNumber t)
  | unknown {t : Text} : NamedConstant.ofName? t = none → NamedFunction.ofName? t = none →
      Fault .atom [] (some (.name t)) (.unknownName t)
  | misplaced {t : Token} : beginsNoAtom t = true → Fault .atom [] (some t) (.unexpectedToken t)
  | bare {t : Text} {f : NamedFunction} {next : Option Token} :
      NamedFunction.ofName? t = some f → next ≠ some .opening →
      Fault .atom [.name t] next (.missingParenthesis f)
  | inside {head ts : List Token} {next : Option Token} {r : Refusal} :
      Opens head → Fault (.chain .sum) ts next r → Fault .atom (head ++ ts) next r
  | unclosed {head ts : List Token} {d : Nat} {e : Expr} :
      Opens head → Derives (.chain .sum) d ts e → Fault .atom (head ++ ts) none .unclosedParenthesis
  | notClosed {head ts : List Token} {d : Nat} {e : Expr} {t : Token} :
      Opens head → Derives (.chain .sum) d ts e → EndsBefore (.chain .sum) [t] → t ≠ .closing →
      Fault .atom (head ++ ts) (some t) (.unexpectedToken t)

section Completion

theorem Opens.derives {head ts : List Token} {d : Nat} {e : Expr} (h : Opens head)
    (hts : Derives (.chain .sum) d ts e) :
    ∃ e', Derives .atom d (head ++ (ts ++ [.closing])) e' := by
  cases h with
  | group => exact ⟨e, .group hts⟩
  | call hf => exact ⟨_, .call hf hts⟩

theorem derives_pi : Derives .atom 0 [.name NamedConstant.pi.name] (.constant .pi) :=
  .constant rfl

theorem derives_sum_pi : Derives (.chain .sum) 1 [.name NamedConstant.pi.name] (.constant .pi) :=
  .operand (c := .sum) (.operand (c := .product) (.plain (.base derives_pi)))

theorem viable_nil : Viable (.chain .sum) [] :=
  ⟨_, _, _, derives_sum_pi⟩

theorem Opens.viable {head ts : List Token} (h : Opens head) (hts : Viable (.chain .sum) ts) :
    Viable .atom (head ++ ts) := by
  obtain ⟨us, d, e, hus⟩ := hts
  obtain ⟨e', he'⟩ := h.derives hus
  refine ⟨us ++ [.closing], d, e', ?_⟩
  simpa using he'

theorem Viable.of_append {p : Phrase} {ts us : List Token} (h : Viable p (ts ++ us)) :
    Viable p ts := by
  obtain ⟨vs, d, e, hvs⟩ := h
  exact ⟨us ++ vs, d, e, by rwa [← List.append_assoc]⟩

theorem viable_of_derives {p : Phrase} {d : Nat} {ts : List Token} {e : Expr}
    (h : Derives p d ts e) : Viable p ts :=
  ⟨[], d, e, by rwa [List.append_nil]⟩

/-- What has been read before a fault can be completed: an operand is put where one is missing, and
the parentheses are closed. -/
theorem Fault.viable {p : Phrase} {ts : List Token} {next : Option Token} {r : Refusal}
    (h : Fault p ts next r) : Viable p ts := by
  induction h with
  | first _ ih =>
    obtain ⟨us, d, e, hus⟩ := ih
    exact ⟨us, d, e, .operand hus⟩
  | later hts ht _ ih =>
    obtain ⟨vs, d, e, hvs⟩ := ih
    exact ⟨vs, _, _, by simpa using hts.extend ht hvs⟩
  | minus _ ih =>
    obtain ⟨us, d, e, hus⟩ := ih
    exact ⟨us, _, _, .minus hus⟩
  | plain _ _ ih =>
    obtain ⟨us, d, e, hus⟩ := ih
    exact ⟨us, _, _, .plain hus⟩
  | base _ ih =>
    obtain ⟨us, d, e, hus⟩ := ih
    exact ⟨us, d, e, .base hus⟩
  | exponent hts _ ih =>
    obtain ⟨vs, d, e, hvs⟩ := ih
    exact ⟨vs, _, _, by simpa using hts.raised hvs⟩
  | ended | malformed | unknown | misplaced => exact ⟨_, _, _, derives_pi⟩
  | bare hf =>
    have hopened : Viable .atom ([.name _] ++ [.opening]) := (Opens.call hf).viable viable_nil
    exact hopened.of_append
  | inside hhead _ ih => exact hhead.viable ih
  | unclosed hhead hts => exact hhead.viable (viable_of_derives hts)
  | notClosed hhead hts => exact hhead.viable (viable_of_derives hts)

end Completion

section Decision

theorem ReadsUnless.error_bind {α β : Type} {P : Prop} {x : Except Refusal α} {r : Refusal}
    (hx : ReadsUnless P x (.error r)) (f : α → Except Refusal β) :
    ReadsUnless P (x >>= f) (.error r) := by
  obtain rfl | ⟨hP, limit, rfl⟩ := hx
  · exact .refl _
  · exact Or.inr ⟨hP, limit, rfl⟩

/-- The reader of a phrase is refused after these tokens, or before as too deep, whatever follows
the next token. -/
def Decided (p : Phrase) (ts : List Token) (next : Option Token) (r : Refusal) : Prop :=
  ∀ limits levels rest, rest.head? = next →
    ReadsUnless True (reader limits levels p (ts ++ rest)) (.error r)

theorem Derives.reads_sum {d : Nat} {ts rest : List Token} {e : Expr}
    (h : Derives (.chain .sum) d ts e) (hrest : EndsBefore (.chain .sum) rest) (limits : Limits)
    (levels : Nat) :
    ReadsUnless True (sum limits (signedOperand limits levels) (ts ++ rest)) (.ok (e, rest)) :=
  ((h.reads limits levels).atEnd hrest).mono fun _ => trivial

theorem decided_first {c : Chain} {ts : List Token} {next : Option Token} {r : Refusal}
    (h : Decided c.operand ts next r) : Decided (.chain c) ts next r := by
  intro limits levels rest hrest
  rw [reader_chain]
  exact (h limits levels rest hrest).error_bind _

theorem decided_later {c : Chain} {op : Operator} {t : Token} {d : Nat} {ts us : List Token}
    {a : Expr} {next : Option Token} {r : Refusal} (hts : Derives (.chain c) d ts a)
    (ht : c.operator? t = some op) (h : Decided c.operand us next r) :
    Decided (.chain c) (ts ++ t :: us) next r := by
  intro limits levels rest hrest
  obtain ⟨n, -, -, hread⟩ := hts.reads limits levels (t :: us ++ rest) (endsBefore_operator ht _)
  rw [List.append_assoc]
  obtain hread | ⟨-, limit, hread⟩ := hread
  · rw [hread, List.cons_append, chainFrom, ht]
    cases limits.height - n with
    | zero => exact Or.inr ⟨trivial, limits.height, rfl⟩
    | succ room => exact (h limits levels rest hrest).error_bind _
  · exact Or.inr ⟨trivial, limit, hread⟩

theorem decided_minus {ts : List Token} {next : Option Token} {r : Refusal}
    (h : Decided .signed ts next r) : Decided .signed (.minus :: ts) next r := by
  intro limits levels rest hrest
  cases levels with
  | zero => exact Or.inr ⟨trivial, limits.nesting, rfl⟩
  | succ levels => exact (h limits levels rest hrest).error_bind _

theorem signedOperand_of_head?_ne_minus {tokens : List Token} (h : tokens.head? ≠ some .minus) :
    signedOperand limits (levels + 1) tokens =
      power limits (signedOperand limits levels) tokens := by
  cases tokens with
  | nil => rfl
  | cons t rest => exact signedOperand_of_ne_minus (fun ht => h (congrArg some ht)) rest

theorem head?_append_toList (ts rest : List Token) :
    (ts ++ rest.head?.toList).head? = (ts ++ rest).head? := by
  cases ts <;> cases rest <;> rfl

theorem decided_plain {ts : List Token} {next : Option Token} {r : Refusal}
    (hminus : (ts ++ next.toList).head? ≠ some .minus) (h : Decided .power ts next r) :
    Decided .signed ts next r := by
  rintro limits levels rest rfl
  rw [head?_append_toList] at hminus
  cases levels with
  | zero =>
    refine Or.inr ⟨trivial, limits.nesting, ?_⟩
    rw [reader, signedOperand]
  | succ levels =>
    rw [reader, signedOperand_of_head?_ne_minus hminus]
    exact h limits levels rest rfl

theorem decided_exponent {d : Nat} {ts us : List Token} {a : Expr} {next : Option Token}
    {r : Refusal} (hts : Derives .atom d ts a) (h : Decided .signed us next r) :
    Decided .power (ts ++ .power :: us) next r := by
  intro limits levels rest hrest
  rw [List.append_assoc]
  have hbase := hts.reads limits levels (.power :: us ++ rest) fun _ _ => rfl
  exact hbase.bind (fun _ => trivial) ((h limits levels rest hrest).error_bind _)

theorem Opens.atom_of_group {head tokens : List Token} {r : Refusal} (h : Opens head)
    (hgroup : ReadsUnless True (Expr.group limits (signedOperand limits levels) tokens)
      (.error r)) :
    ReadsUnless True (atom limits (signedOperand limits levels) (head ++ tokens)) (.error r) := by
  cases h with
  | group => exact hgroup
  | call hf =>
    simp only [List.cons_append, List.nil_append, atom, named, ofName?_constant_eq_none hf, hf]
    exact hgroup.error_bind _

/-- A fault does not depend on the limits, nor on what follows the next token. -/
theorem Fault.decided {p : Phrase} {ts : List Token} {next : Option Token} {r : Refusal}
    (h : Fault p ts next r) : Decided p ts next r := by
  induction h with
  | first _ ih => exact decided_first ih
  | later hts ht _ ih => exact decided_later hts ht ih
  | minus _ ih => exact decided_minus ih
  | plain hminus _ ih => exact decided_plain hminus ih
  | base _ ih => exact fun limits levels rest hrest => (ih limits levels rest hrest).error_bind _
  | exponent hts _ ih => exact decided_exponent hts ih
  | ended =>
    intro limits levels rest hrest
    obtain rfl := List.head?_eq_none_iff.mp hrest
    exact .refl _
  | malformed ht =>
    intro limits levels rest hrest
    obtain ⟨us, rfl⟩ := List.head?_eq_some_iff.mp hrest
    simp only [reader, List.nil_append, atom, ht]
    exact .refl _
  | unknown hc hf =>
    intro limits levels rest hrest
    obtain ⟨us, rfl⟩ := List.head?_eq_some_iff.mp hrest
    simp only [reader, List.nil_append, atom, named, hc, hf]
    exact .refl _
  | @misplaced t ht =>
    intro limits levels rest hrest
    obtain ⟨us, rfl⟩ := List.head?_eq_some_iff.mp hrest
    cases t with
    | number | name | opening => cases ht
    | _ => exact .refl _
  | bare hf hnext =>
    rintro limits levels rest rfl
    simp only [reader, List.cons_append, List.nil_append, atom, named,
      ofName?_constant_eq_none hf, hf]
    split
    · exact absurd rfl hnext
    · exact .refl _
  | inside hhead _ ih =>
    intro limits levels rest hrest
    rw [List.append_assoc]
    exact hhead.atom_of_group ((ih limits levels rest hrest).error_bind _)
  | unclosed hhead hts =>
    intro limits levels rest hrest
    obtain rfl := List.head?_eq_none_iff.mp hrest
    rw [List.append_assoc]
    apply hhead.atom_of_group
    exact (hts.reads_sum (endsBefore_nil _) limits levels).bind id (.refl _)
  | @notClosed _ _ _ _ t hhead hts hend ht =>
    intro limits levels rest hrest
    obtain ⟨us, rfl⟩ := List.head?_eq_some_iff.mp hrest
    have hends : EndsBefore (.chain .sum) (t :: us) := hend
    rw [List.append_assoc]
    apply hhead.atom_of_group
    refine (hts.reads_sum hends limits levels).bind id ?_
    cases t with
    | closing => exact absurd rfl ht
    | _ => exact .refl _

/-- Tokens are not viable if the reader does not get to the end of anything that begins so. -/
theorem not_viable_of_reads {ts : List Token} (h : ∀ limits levels us e,
    reader limits levels (.chain .sum) (ts ++ us) ≠ .ok (e, [])) : ¬Viable (.chain .sum) ts := by
  rintro ⟨us, d, e, hus⟩
  apply h ⟨0, e.height⟩ d us e
  rw [← List.append_nil (ts ++ us)]
  exact hus.reads_of_le (Nat.le_refl d) (Nat.le_refl _) (endsBefore_nil _)

theorem Fault.not_viable {ts : List Token} {t : Token} {r : Refusal}
    (h : Fault (.chain .sum) ts (some t) r) : ¬Viable (.chain .sum) (ts ++ [t]) := by
  apply not_viable_of_reads
  intro limits levels us e hread
  rw [List.append_assoc] at hread
  obtain herror | ⟨-, limit, herror⟩ := h.decided limits levels ([t] ++ us) rfl
  all_goals
    rw [hread] at herror
    cases herror

/-- A complete expression that a token follows is not the beginning of a longer one, unless the
token goes on with it. -/
theorem Derives.not_viable {d : Nat} {ts : List Token} {e : Expr} {t : Token}
    (h : Derives (.chain .sum) d ts e) (ht : EndsBefore (.chain .sum) [t]) :
    ¬Viable (.chain .sum) (ts ++ [t]) := by
  apply not_viable_of_reads
  intro limits levels us e' hread
  rw [List.append_assoc] at hread
  have hend : EndsBefore (.chain .sum) ([t] ++ us) := ht
  obtain hok | ⟨-, limit, herror⟩ := h.reads_sum hend limits levels
  · cases hok.symm.trans hread
  · cases herror.symm.trans hread

end Decision

section Ends

/-- What the reader leaves does not belong to the phrase that it has read. -/
def Ends (p : Phrase) (read : Reader) : Prop :=
  ∀ tokens e rest, read tokens = .ok (e, rest) → EndsBefore p rest

theorem endsBefore_chain {c : Chain} {rest : List Token} (hoperand : EndsBefore c.operand rest)
    (hop : EndsChain c.operator? rest) : EndsBefore (.chain c) rest := by
  intro t ht
  have hoperand := hoperand t ht
  have hop := hop t ht
  cases c <;> simp_all [Phrase.goesOn, Chain.operand, Chain.operator?]

theorem ends_chain {c : Chain} {operand : Reader} (ho : Ends c.operand operand) :
    Ends (.chain c) (chain limits c.operator? operand) := by
  intro tokens e rest h
  obtain ⟨n, -, hjoined, hends⟩ := chain_eq_ok_iff.mp h
  have hoperand : EndsBefore c.operand rest := by
    cases hjoined with
    | first hlast | next _ _ hlast => exact ho _ _ _ hlast
  exact endsBefore_chain hoperand hends

theorem ends_power {signed : Reader} (hs : Ends .signed signed) :
    Ends .power (power limits signed) := by
  intro tokens e rest h
  obtain ⟨⟨base, us⟩, -, hnext⟩ := exists_of_bind_eq_ok h
  dsimp only at hnext
  split at hnext
  · obtain ⟨⟨exponent, vs⟩, hexponent, hpair⟩ := exists_of_bind_eq_ok hnext
    cases hpair
    exact hs _ _ _ hexponent
  · rename_i hpower
    cases hnext
    intro t ht
    obtain ⟨vs, rfl⟩ := List.head?_eq_some_iff.mp ht
    exact decide_eq_false fun h => hpower vs (congrArg (· :: vs) h)

theorem ends_signedOperand (levels : Nat) : Ends .signed (signedOperand limits levels) := by
  induction levels with
  | zero =>
    intro tokens e rest h
    rw [signedOperand] at h
    cases h
  | succ levels ih =>
    intro tokens e rest h
    obtain ⟨us, operand, -, hoperand, -⟩ | hpower := signedOperand_eq_ok h
    · exact ih _ _ _ hoperand
    · exact ends_power ih _ _ _ hpower

theorem ends_sum (levels : Nat) : Ends (.chain .sum) (sum limits (signedOperand limits levels)) :=
  ends_chain (c := .sum) (ends_chain (c := .product) (ends_signedOperand levels))

end Ends

section Refusals

/-- The tokens are too deep, or there is a fault in them that explains the refusal. -/
def Explained (p : Phrase) (tokens : List Token) (r : Refusal) : Prop :=
  (∃ n, r = .tooDeep n) ∨ ∃ ts rest, tokens = ts ++ rest ∧ Fault p ts rest.head? r

/-- Whenever the reader refuses, there is an explanation. -/
def Explains (p : Phrase) (read : Reader) : Prop :=
  ∀ tokens r, read tokens = .error r → Explained p tokens r

theorem Explained.within {p q : Phrase} {tokens : List Token} {r : Refusal}
    (h : Explained p tokens r) (before : List Token)
    (hfault : ∀ ts next, Fault p ts next r → Fault q (before ++ ts) next r) :
    Explained q (before ++ tokens) r := by
  obtain hdeep | ⟨ts, rest, rfl, hts⟩ := h
  · exact Or.inl hdeep
  · exact Or.inr ⟨before ++ ts, rest, (List.append_assoc _ _ _).symm, hfault ts _ hts⟩

theorem explained_of_fault {p : Phrase} {tokens : List Token} {r : Refusal}
    (h : Fault p [] tokens.head? r) : Explained p tokens r :=
  Or.inr ⟨[], tokens, rfl, h⟩

theorem error_or_ok_of_bind {α β : Type} {x : Except Refusal α} {f : α → Except Refusal β}
    {r : Refusal} (h : (x >>= f) = .error r) :
    x = .error r ∨ ∃ a, x = .ok a ∧ f a = .error r := by
  cases x with
  | error r' =>
    cases h
    exact Or.inl rfl
  | ok a => exact Or.inr ⟨a, rfl, h⟩

theorem explained_chainFrom {c : Chain} {operand : Reader} (hf : Follows c.operand levels operand)
    (he : Explains c.operand operand) (room : Nat) {d : Nat} {ts tokens : List Token} {left : Expr}
    {r : Refusal} (hleft : Derives (.chain c) d ts left)
    (h : chainFrom limits c.operator? operand room left tokens = .error r) :
    Explained (.chain c) (ts ++ tokens) r := by
  induction room generalizing d ts tokens left with
  | zero =>
    cases tokens with
    | nil =>
      rw [chainFrom] at h
      cases h
    | cons t us =>
      rw [chainFrom] at h
      split at h
      · cases h
      · cases h
        exact Or.inl ⟨_, rfl⟩
  | succ room ih =>
    cases tokens with
    | nil =>
      rw [chainFrom] at h
      cases h
    | cons t us =>
      rw [chainFrom] at h
      split at h
      · cases h
      · rename_i op hop
        obtain herror | ⟨⟨right, vs⟩, hright, hrest⟩ := error_or_ok_of_bind h
        · rw [List.append_cons]
          apply (he _ _ herror).within (ts ++ [t])
          intro us' next hus
          rw [← List.append_cons]
          exact .later hleft hop hus
        · obtain ⟨d', -, us, rfl, hus⟩ := hf _ _ _ hright
          have hall := ih (hleft.extend hop hus) hrest
          simpa using hall

theorem explains_chain {c : Chain} {operand : Reader} (hf : Follows c.operand levels operand)
    (he : Explains c.operand operand) : Explains (.chain c) (chain limits c.operator? operand) := by
  intro tokens r h
  obtain herror | ⟨⟨first, us⟩, hfirst, hrest⟩ := error_or_ok_of_bind h
  · exact (he _ _ herror).within [] fun _ _ => .first
  · obtain ⟨d, -, ts, rfl, hts⟩ := hf _ _ _ hfirst
    exact explained_chainFrom hf he _ (.operand hts) hrest

section Signed

variable (hs : Explains .signed (signedOperand limits levels))
include hs

theorem explains_sum : Explains (.chain .sum) (sum limits (signedOperand limits levels)) := by
  have hf : Follows .signed levels (signedOperand limits levels) := follows_signedOperand levels
  exact explains_chain (c := .sum) (follows_chain (c := .product) hf)
    (explains_chain (c := .product) hf hs)

theorem explained_group {head tokens : List Token} {r : Refusal} (hhead : Opens head)
    (h : Expr.group limits (signedOperand limits levels) tokens = .error r) :
    Explained .atom (head ++ tokens) r := by
  obtain herror | ⟨⟨e, rest⟩, hsum, hnext⟩ := error_or_ok_of_bind h
  · exact (explains_sum hs _ _ herror).within head fun _ _ => .inside hhead
  · obtain ⟨d, -, ts, rfl, hts⟩ := follows_sum (follows_signedOperand levels) _ _ _ hsum
    have hends := ends_sum levels _ _ _ hsum
    have hsplit := List.append_assoc head ts rest
    dsimp only at hnext
    split at hnext
    · cases hnext
    · rename_i t us hclosing
      cases hnext
      exact Or.inr ⟨head ++ ts, t :: us, hsplit.symm, .notClosed hhead hts hends hclosing⟩
    · cases hnext
      exact Or.inr ⟨head ++ ts, [], hsplit.symm, .unclosed hhead hts⟩

theorem explained_named {name : Text} {tokens : List Token} {r : Refusal}
    (h : named limits (signedOperand limits levels) name tokens = .error r) :
    Explained .atom (.name name :: tokens) r := by
  rw [named] at h
  split at h
  · cases h
  · cases h
    exact explained_of_fault (.unknown ‹_› ‹_›)
  · rename_i f hc hf
    split at h
    · obtain herror | ⟨_, -, hpair⟩ := error_or_ok_of_bind h
      · exact explained_group hs (.call hf) herror
      · cases hpair
    · rename_i hopening
      cases h
      refine Or.inr ⟨[.name name], tokens, rfl, .bare hf fun hhead => ?_⟩
      obtain ⟨us, hus⟩ := List.head?_eq_some_iff.mp hhead
      exact hopening us hus

theorem explains_atom : Explains .atom (atom limits (signedOperand limits levels)) := by
  intro tokens r h
  rw [atom.eq_def] at h
  split at h
  · cases h
    exact explained_of_fault .ended
  · split at h
    · cases h
    · cases h
      exact explained_of_fault (.malformed ‹_›)
  · exact explained_named hs h
  · exact explained_group hs .group h
  · rename_i t us hnumber hname hopening
    cases h
    apply explained_of_fault
    cases t with
    | number numeral => exact absurd rfl (hnumber numeral)
    | name letters => exact absurd rfl (hname letters)
    | opening => exact absurd rfl hopening
    | _ => exact .misplaced rfl

theorem explains_power : Explains .power (power limits (signedOperand limits levels)) := by
  intro tokens r h
  obtain herror | ⟨⟨base, us⟩, hbase, hnext⟩ := error_or_ok_of_bind h
  · exact (explains_atom hs _ _ herror).within [] fun _ _ => .base
  · obtain ⟨d, -, ts, rfl, hts⟩ := follows_atom (follows_signedOperand levels) _ _ _ hbase
    dsimp only at hnext
    split at hnext
    · obtain herror | ⟨_, -, hpair⟩ := error_or_ok_of_bind hnext
      · rw [List.append_cons]
        apply (hs _ _ herror).within (ts ++ [Token.power])
        intro us' next hus
        rw [← List.append_cons]
        exact .exponent hts hus
      · cases hpair
    · cases hnext

end Signed

theorem explains_signedOperand (levels : Nat) :
    Explains .signed (signedOperand limits levels) := by
  induction levels with
  | zero =>
    intro tokens r h
    rw [signedOperand] at h
    cases h
    exact Or.inl ⟨_, rfl⟩
  | succ levels ih =>
    intro tokens r h
    by_cases hminus : tokens.head? = some .minus
    · obtain ⟨us, rfl⟩ := List.head?_eq_some_iff.mp hminus
      rw [signedOperand] at h
      obtain herror | ⟨_, -, hpair⟩ := error_or_ok_of_bind h
      · exact (ih _ _ herror).within [.minus] fun _ _ => .minus
      · cases hpair
    · rw [signedOperand_of_head?_ne_minus hminus] at h
      obtain hdeep | ⟨ts, rest, rfl, hts⟩ := explains_power ih _ _ h
      · exact Or.inl hdeep
      · rw [← head?_append_toList] at hminus
        exact Or.inr ⟨ts, rest, rfl, .plain hminus hts⟩

end Refusals

section Blame

/-- The refusal is about this token and carries its text. -/
inductive Blames : Token → Refusal → Prop
  | misplaced (t : Token) : Blames t (.unexpectedToken t)
  | malformed (t : Text) : Blames (.number t) (.malformedNumber t)
  | unknown (t : Text) : Blames (.name t) (.unknownName t)

/-- The last token is a function, and the refusal says that its parenthesis is missing. -/
def LacksParenthesis (ts : List Token) (r : Refusal) : Prop :=
  ∃ f, r = .missingParenthesis f ∧ ts.getLast? = some (.name f.name)

/-- What a refusal says after viable tokens, at the next token or at their end. -/
def Says (ts : List Token) : Option Token → Refusal → Prop
  | none, r => r = .unexpectedEnd ∨ r = .unclosedParenthesis ∨ LacksParenthesis ts r
  | some t, r => Blames t r ∨ LacksParenthesis ts r

theorem LacksParenthesis.within {ts : List Token} {r : Refusal} (h : LacksParenthesis ts r)
    (before : List Token) : LacksParenthesis (before ++ ts) r := by
  obtain ⟨f, hr, hlast⟩ := h
  exact ⟨f, hr, by rw [List.getLast?_append, hlast, Option.some_or]⟩

theorem Says.within {ts : List Token} {next : Option Token} {r : Refusal} (h : Says ts next r)
    (before : List Token) : Says (before ++ ts) next r := by
  cases next with
  | none => exact h.imp_right (Or.imp_right fun hlacks => hlacks.within before)
  | some t => exact h.imp_right fun hlacks => hlacks.within before

theorem Fault.says {p : Phrase} {ts : List Token} {next : Option Token} {r : Refusal}
    (h : Fault p ts next r) : Says ts next r := by
  induction h with
  | first _ ih | plain _ _ ih | base _ ih => exact ih
  | @later _ _ t _ ts us _ _ _ _ _ _ ih =>
    rw [List.append_cons]
    exact ih.within (ts ++ [t])
  | minus _ ih => exact ih.within [.minus]
  | @exponent _ ts _ _ _ _ _ _ ih =>
    rw [List.append_cons]
    exact ih.within (ts ++ [Token.power])
  | ended => exact Or.inl rfl
  | malformed => exact Or.inl (.malformed _)
  | unknown => exact Or.inl (.unknown _)
  | misplaced | notClosed => exact Or.inl (.misplaced _)
  | @bare t f next hf =>
    have hlacks : LacksParenthesis [.name t] (.missingParenthesis f) :=
      ⟨f, rfl, congrArg (some ∘ Token.name) (NamedFunction.eq_name_of_ofName? hf)⟩
    cases next with
    | none => exact Or.inr (Or.inr hlacks)
    | some => exact Or.inr hlacks
  | inside _ _ ih => exact ih.within _
  | unclosed => exact Or.inr (Or.inl rfl)

/-- A refused list of tokens begins with viable ones, and no more tokens of it are viable. -/
theorem exists_viable_of_parse {ts : List Token} {r : Refusal} (h : parse limits ts = .error r)
    (hne : ts ≠ []) (hdeep : ∀ n, r ≠ .tooDeep n) : ∃ us rest, ts = us ++ rest ∧
      Viable (.chain .sum) us ∧ (∀ t ∈ rest.head?, ¬Viable (.chain .sum) (us ++ [t])) ∧
      Says us rest.head? r := by
  rw [parse, if_neg (by simpa using hne)] at h
  obtain herror | ⟨⟨e, rest⟩, hsum, hnext⟩ := error_or_ok_of_bind h
  · obtain ⟨n, rfl⟩ | ⟨us, rest, rfl, hfault⟩ :=
      explains_sum (explains_signedOperand limits.nesting) _ _ herror
    · exact absurd rfl (hdeep n)
    · refine ⟨us, rest, rfl, hfault.viable, fun t ht => ?_, hfault.says⟩
      rw [Option.mem_def.mp ht] at hfault
      exact hfault.not_viable
  · obtain ⟨d, -, us, rfl, hus⟩ := follows_sum (follows_signedOperand _) _ _ _ hsum
    have hends := ends_sum _ _ _ _ hsum
    cases rest with
    | cons t rest =>
      cases hnext
      refine ⟨us, t :: rest, rfl, viable_of_derives hus, ?_, Or.inl (.misplaced t)⟩
      rintro _ ⟨rfl⟩
      exact hus.not_viable hends
    | nil =>
      -- what is left to refuse a complete expression for is its size
      dsimp only at hnext
      split at hnext
      · cases hnext
        exact absurd rfl (hdeep _)
      · split at hnext
        · cases hnext
          exact absurd rfl (hdeep _)
        · cases hnext

theorem isGreatest_viable {us rest : List Token} (h : Viable (.chain .sum) us)
    (hnot : ∀ t ∈ rest.head?, ¬Viable (.chain .sum) (us ++ [t])) :
    IsGreatest {n | n ≤ (us ++ rest).length ∧ Viable (.chain .sum) ((us ++ rest).take n)}
      us.length := by
  constructor
  · refine ⟨by simp, ?_⟩
    rwa [List.take_left]
  · rintro n ⟨hn, hviable⟩
    apply Nat.le_of_not_lt
    intro hlt
    cases rest with
    | nil =>
      rw [List.append_nil] at hn
      exact Nat.not_le_of_lt hlt hn
    | cons t rest =>
      obtain ⟨m, rfl⟩ : ∃ m, n = us.length + (m + 1) := ⟨n - us.length - 1, by omega⟩
      rw [List.take_length_add_append, List.take_succ_cons, List.append_cons] at hviable
      exact hnot t rfl hviable.of_append

/-- A refusal that is not about depth points at the first token with which the input stops being the
beginning of an expression. It says that something is missing only if the whole input is such a
beginning. -/
theorem parse_refuses_at_first_unviable {ts : List Token} {r : Refusal}
    (h : parse limits ts = .error r) (hdeep : ∀ n, r ≠ .tooDeep n) :
    ∃ k, IsGreatest {n | n ≤ ts.length ∧ Viable (.chain .sum) (ts.take n)} k ∧
      (k = ts.length → r = .emptyEntry ∧ ts = [] ∨ r = .unexpectedEnd ∨ r = .unclosedParenthesis ∨
        ∃ f, r = .missingParenthesis f ∧ ts.getLast? = some (.name f.name)) ∧
      ∀ hk : k < ts.length, Blames ts[k] r ∨
        ∃ f, r = .missingParenthesis f ∧ 0 < k ∧ ts[k - 1]? = some (.name f.name) := by
  by_cases hne : ts = []
  · subst hne
    cases h
    have hgreatest := @isGreatest_viable [] [] viable_nil (by simp)
    exact ⟨0, hgreatest, fun _ => Or.inl ⟨rfl, rfl⟩, fun hk => absurd hk (Nat.lt_irrefl 0)⟩
  · obtain ⟨us, rest, rfl, hviable, hnot, hsays⟩ := exists_viable_of_parse h hne hdeep
    refine ⟨us.length, isGreatest_viable hviable hnot, fun hend => ?_, fun hk => ?_⟩
    · obtain rfl : rest = [] := by simpa using hend
      rw [List.append_nil]
      exact Or.inr hsays
    · obtain ⟨t, rest, rfl⟩ : ∃ t rest', rest = t :: rest' :=
        List.exists_cons_of_ne_nil fun hnil => by simp [hnil] at hk
      refine Or.imp ?_ ?_ hsays
      · intro hblames
        simpa using hblames
      · rintro ⟨f, rfl, hlast⟩
        have hpos : 0 < us.length := List.length_pos_of_mem (List.mem_of_getLast? hlast)
        refine ⟨f, rfl, hpos, ?_⟩
        rw [List.getLast?_eq_getElem?] at hlast
        rwa [List.getElem?_append_left (Nat.sub_lt hpos Nat.one_pos)]

/-- In `2*(1-sin 3)` the number is wrong, since only a parenthesis can follow the function. -/
theorem parse_refuses_sine_without_parenthesis :
    let ts : List Token := [.number ['2'], .times, .opening, .number ['1'], .minus,
      .name "sin".toList, .number ['3'], .closing]
    parse standardLimits ts = .error (.missingParenthesis .sin) ∧
      (∀ n, Refusal.missingParenthesis .sin ≠ .tooDeep n) ∧
      IsGreatest {n | n ≤ ts.length ∧ Viable (.chain .sum) (ts.take n)} 6 := by
  intro ts
  have hrefused : parse standardLimits ts = .error (.missingParenthesis .sin) := by decide +kernel
  have hdeep (n : Nat) : Refusal.missingParenthesis .sin ≠ .tooDeep n := by simp
  obtain ⟨k, hk, hend, hwrong⟩ := parse_refuses_at_first_unviable hrefused hdeep
  have hlt : k < ts.length := by
    refine Nat.lt_of_le_of_ne hk.1.1 fun hlength => ?_
    simpa [ts] using hend hlength
  obtain hblames | ⟨f, -, -, hname⟩ := hwrong hlt
  · generalize ts[k] = t at hblames
    cases hblames
  · have hsix : k = 6 := by
      have hbound : k < 8 := hlt
      interval_cases k <;> simp_all [ts]
    exact ⟨hrefused, hdeep, hsix ▸ hk⟩

end Blame

end Stepwise.Expr
