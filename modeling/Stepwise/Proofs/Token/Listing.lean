import Stepwise.Proofs.Token.Runs

namespace Stepwise.Token

open Unicode

/-- The text is cut into these tokens, whatever comes after its last run. -/
def Scans (t : Text) (ts : List Token) : Prop :=
  ∀ rest, EndsRun rest → scan (t ++ rest) = (ts ++ ·) <$> scan rest

theorem Scans.nil : Scans [] [] := by
  intro rest _
  change scan rest = id <$> scan rest
  rw [id_map]

theorem Scans.cons {c : Char} {s : Token} {t : Text} {ts : List Token} (hc : ofSymbol? c = some s)
    (h : Scans t ts) : Scans (c :: t) (s :: ts) := by
  intro rest hrest
  rw [List.cons_append, scan_of_symbol hc, h rest hrest]
  exact append_map_append [s] ts _

/-- A symbol ends the run before it. -/
theorem Scans.append {c : Char} {s : Token} {t u : Text} {ts us : List Token}
    (ht : Scans t ts) (hc : ofSymbol? c = some s) (hu : Scans u us) :
    Scans (t ++ c :: u) (ts ++ s :: us) := by
  intro rest hrest
  rw [List.append_assoc, ht (c :: u ++ rest) (endsRun_symbol hc _), hu.cons hc rest hrest]
  exact append_map_append ts (s :: us) _

/-- A blank ends the run before it as well, and leaves no token. -/
theorem Scans.append_blank {c : Char} {t u : Text} {ts us : List Token} (ht : Scans t ts)
    (hc : isWhiteSpace c = true) (hu : Scans u us) : Scans (t ++ c :: u) (ts ++ us) := by
  intro rest hrest
  rw [List.append_assoc, ht (c :: u ++ rest) (endsRun_blank hc _), List.cons_append,
    scan_blank hc, hu rest hrest]
  exact append_map_append ts us _

theorem Scans.scan_eq {t : Text} {ts : List Token} (h : Scans t ts) : scan t = .ok ts := by
  have ht := h [] endsRun_nil
  rw [List.append_nil, scan_nil] at ht
  rw [ht]
  exact congrArg Except.ok (List.append_nil ts)

theorem scans_of_scan {t : Text} {ts : List Token} (h : scan t = .ok ts) : Scans t ts := by
  intro rest hrest
  rw [scan_append hrest, h]
  rfl

theorem scans_numeral {t : Text} (h : Decimal.isNumeral t = true) : Scans t [number t] :=
  fun _ hrest => scan_numeral h hrest

theorem scans_name {t : Text} (hne : t ≠ []) (h : ∀ c ∈ t, isAlphabetic c = true)
    (hlower : lowerCase t = t) : Scans t [name t] := by
  intro rest hrest
  rw [scan_name hne h hrest, hlower]
  rfl

theorem scans_small {t : Text} (hne : t ≠ []) (h : ∀ c ∈ t, IsSmall c) : Scans t [name t] :=
  scans_name hne (fun c hc => isAlphabetic_of_isSmall (h c hc)) (lowerCase_of_isSmall h)

/-- A token that its text spells when it stands alone: a number is a numeral, and a name is made of
letters and is in lower case. -/
def IsLegible : Token → Prop
  | number numeral => Decimal.isNumeral numeral = true
  | name letters =>
      letters ≠ [] ∧ (∀ c ∈ letters, isAlphabetic c = true) ∧ lowerCase letters = letters
  | plus | minus | times | divide | power | opening | closing => True

instance : DecidablePred IsLegible
  | number numeral => inferInstanceAs (Decidable (Decimal.isNumeral numeral = true))
  | name letters => decidable_of_iff
      (letters ≠ [] ∧ letters.all isAlphabetic = true ∧ lowerCase letters = letters)
      (by rw [List.all_eq_true]; rfl)
  | plus | minus | times | divide | power | opening | closing => .isTrue trivial

theorem IsLegible.scans {t : Token} (h : t.IsLegible) : Scans t.text [t] := by
  cases t with
  | number numeral => exact scans_numeral h
  | name letters =>
    obtain ⟨hne, halphabetic, hlower⟩ := h
    exact scans_name hne halphabetic hlower
  | plus | minus | times | divide | power | opening | closing => exact Scans.nil.cons rfl

@[simp]
theorem listText_singleton (t : Token) : listText [t] = t.text := by
  simp [listText, Text.joined]

theorem listText_cons_cons (t u : Token) (ts : List Token) :
    listText (t :: u :: ts) = t.text ++ ' ' :: listText (u :: ts) := by
  simp [listText, Text.joined, List.intercalate_cons_cons]

theorem scans_listText {ts : List Token} (h : ∀ t ∈ ts, t.IsLegible) : Scans (listText ts) ts := by
  induction ts with
  | nil => exact .nil
  | cons t ts ih =>
    obtain ⟨ht, hts⟩ := List.forall_mem_cons.mp h
    cases ts with
    | nil =>
      rw [listText_singleton]
      exact ht.scans
    | cons u ts =>
      rw [listText_cons_cons]
      exact ht.scans.append_blank rfl (ih hts)

/-- A list of tokens comes back from its text: the blank keeps neighbours apart, whatever they are,
and nothing else is changed. -/
theorem scan_listText {ts : List Token} (h : ∀ t ∈ ts, t.IsLegible) : scan (listText ts) = .ok ts :=
  (scans_listText h).scan_eq

/-- Numbers that end and begin with a point, and names that would be one, stay apart. -/
theorem scan_listText_of_neighbours :
    let ts : List Token := [number "1.".toList, number ".5".toList, name "sin".toList,
      name "πx".toList, number "2".toList, closing, minus, minus]
    (∀ t ∈ ts, t.IsLegible) ∧ listText ts = "1. .5 sin πx 2 ) - -".toList ∧
      scan "1. .5 sin πx 2 ) - -".toList = .ok ts := by
  intro ts
  have hlegible : ∀ t ∈ ts, t.IsLegible := by decide +kernel
  have htext : listText ts = "1. .5 sin πx 2 ) - -".toList := by decide
  exact ⟨hlegible, htext, htext ▸ scan_listText hlegible⟩

end Stepwise.Token
