import Stepwise.Proofs.Number.Numeral
import Stepwise.Token.Scan

namespace Stepwise

namespace Unicode

theorem isWhiteSpace_of_isAlphabetic {c : Char} (h : isAlphabetic c = true) :
    isWhiteSpace c = false := by
  have hdisjoint : ∀ r ∈ alphabetic, ∀ w ∈ whiteSpace, r.last < w.first ∨ w.last < r.first := by
    decide +kernel
  obtain ⟨r, hr, hfirst, hlast⟩ := exists_mem_of_covers h
  rw [isWhiteSpace, Bool.eq_false_iff]
  intro hw
  obtain ⟨w, hw, hwfirst, hwlast⟩ := exists_mem_of_covers hw
  have := hdisjoint r hr w hw
  omega

theorem isAlphabetic_of_lt {c : Char} (h : c.toNat < 0x41) : isAlphabetic c = false :=
  covers_of_lt h

/-- The small letters from `a` to `z`, of which the names are made. -/
def IsSmall (c : Char) : Prop :=
  0x61 ≤ c.toNat ∧ c.toNat ≤ 0x7A

instance (c : Char) : Decidable (IsSmall c) :=
  inferInstanceAs (Decidable (_ ∧ _))

theorem isAlphabetic_of_isSmall {c : Char} (h : IsSmall c) : isAlphabetic c = true := by
  obtain ⟨hfirst, hlast⟩ := h
  have hcapital : ¬c.toNat < 0x41 := by omega
  have hsmall : ¬c.toNat < 0x61 := by omega
  rw [isAlphabetic, alphabetic, covers, if_neg hcapital, covers, if_neg hsmall,
    decide_eq_true hlast, Bool.true_or, Bool.or_true]

theorem lowerChar_of_isSmall {c : Char} (h : IsSmall c) : lowerChar c = [c] := by
  obtain ⟨hfirst, hlast⟩ := h
  have hcapital : ¬c.toNat < 0x41 := by omega
  have hsmall : ¬(c.toNat ≤ 0x5A ∧ (c.toNat - 0x41) % 1 = 0) := by omega
  have hbelow : c.toNat < 0xC0 := by omega
  have hne : c ≠ 'İ' := by
    rintro rfl
    revert hlast
    decide
  rw [lowerChar, if_neg hne, capitals, lowerCode, if_neg hcapital, if_neg hsmall, lowerCode,
    if_pos hbelow, Char.ofNat_toNat]

theorem lowerAfter_of_isSmall {t : Text} (h : ∀ c ∈ t, IsSmall c) (before : Text) :
    lowerAfter before t = t := by
  induction t generalizing before with
  | nil => rw [lowerAfter]
  | cons c t ih =>
    obtain ⟨hc, ht⟩ := List.forall_mem_cons.mp h
    have hne : c ≠ 'Σ' := by
      rintro rfl
      revert hc
      decide
    rw [lowerAfter, ih ht]
    simp only [if_neg hne, lowerChar_of_isSmall hc, List.cons_append, List.nil_append]

theorem lowerCase_of_isSmall {t : Text} (h : ∀ c ∈ t, IsSmall c) : lowerCase t = t :=
  lowerAfter_of_isSmall h []

end Unicode

namespace Token

open Unicode

theorem toNat_of_isDigit {c : Char} (h : c.isDigit = true) : 48 ≤ c.toNat ∧ c.toNat ≤ 57 := by
  simpa [Char.isDigit, UInt32.le_iff_toNat_le] using h

theorem isWhiteSpace_of_isDigit {c : Char} (h : c.isDigit = true) : isWhiteSpace c = false := by
  obtain ⟨hfirst, hlast⟩ := toNat_of_isDigit h
  simp only [isWhiteSpace, whiteSpace, covers]
  grind

theorem isNumeric_iff {c : Char} : isNumeric c = true ↔ c.isDigit = true ∨ c = '.' := by
  simp [isNumeric]

theorem isWhiteSpace_of_isNumeric {c : Char} (h : isNumeric c = true) : isWhiteSpace c = false := by
  obtain h | rfl := isNumeric_iff.mp h
  · exact isWhiteSpace_of_isDigit h
  · rfl

theorem classes_of_ofSymbol? {c : Char} {t : Token} (h : ofSymbol? c = some t) :
    isWhiteSpace c = false ∧ isNumeric c = false ∧ isAlphabetic c = false := by
  unfold ofSymbol? at h
  split at h <;> cases h <;> decide

theorem ofSymbol?_eq_none {c : Char} (h : isNumeric c = true ∨ isAlphabetic c = true) :
    ofSymbol? c = none := by
  cases hs : ofSymbol? c with
  | none => rfl
  | some t =>
    obtain ⟨-, hnumeric, halphabetic⟩ := classes_of_ofSymbol? hs
    simp [hnumeric, halphabetic] at h

theorem isNumeric_of_isAlphabetic {c : Char} (h : isAlphabetic c = true) : isNumeric c = false := by
  rw [Bool.eq_false_iff]
  intro hn
  have hlt : c.toNat < 0x41 := by
    obtain hd | rfl := isNumeric_iff.mp hn
    · exact Nat.lt_of_le_of_lt (toNat_of_isDigit hd).2 (by decide)
    · decide
  rw [isAlphabetic_of_lt hlt] at h
  cases h

theorem isAlphabetic_of_isWhiteSpace {c : Char} (h : isWhiteSpace c = true) :
    isAlphabetic c = false := by
  rw [Bool.eq_false_iff]
  intro hc
  rw [isWhiteSpace_of_isAlphabetic hc] at h
  cases h

theorem isNumeric_of_isWhiteSpace {c : Char} (h : isWhiteSpace c = true) :
    isNumeric c = false := by
  rw [Bool.eq_false_iff]
  intro hc
  rw [isWhiteSpace_of_isNumeric hc] at h
  cases h

theorem isAlphabetic_of_isNumeric {c : Char} (h : isNumeric c = true) :
    isAlphabetic c = false := by
  rw [Bool.eq_false_iff]
  intro hc
  rw [isNumeric_of_isAlphabetic hc] at h
  cases h

/-- What follows is no part of a number or name before it. -/
def EndsRun (rest : Text) : Prop :=
  ∀ c ∈ rest.head?, isNumeric c = false ∧ isAlphabetic c = false

theorem endsRun_nil : EndsRun [] := by
  simp [EndsRun]

theorem endsRun_symbol {c : Char} {t : Token} (h : ofSymbol? c = some t) (rest : Text) :
    EndsRun (c :: rest) := by
  simpa [EndsRun] using (classes_of_ofSymbol? h).2

theorem endsRun_blank {c : Char} (h : isWhiteSpace c = true) (rest : Text) :
    EndsRun (c :: rest) := by
  simpa [EndsRun] using And.intro (isNumeric_of_isWhiteSpace h) (isAlphabetic_of_isWhiteSpace h)

theorem takeWhile_run {p : Char → Bool} {run rest : Text} (hrun : ∀ c ∈ run, p c = true)
    (hrest : ∀ c ∈ rest.head?, p c = false) :
    (run ++ rest).takeWhile p = run ∧ (run ++ rest).dropWhile p = rest := by
  have hstop : rest.takeWhile p = [] ∧ rest.dropWhile p = rest := by
    cases rest with
    | nil => exact ⟨rfl, rfl⟩
    | cons c rest => simp [hrest c rfl]
  rw [List.takeWhile_append_of_pos hrun, List.dropWhile_append_of_pos hrun, hstop.1, hstop.2,
    List.append_nil]
  exact ⟨rfl, rfl⟩

/-- A run up to its first point, with no point before it. -/
theorem split_at_point (t : Text) : t.takeWhile (· != '.') = t ∧ t.dropWhile (· != '.') = [] ∧
      '.' ∉ t ∨
    ∃ whole afterPoint, t = whole ++ '.' :: afterPoint ∧ '.' ∉ whole ∧
      t.takeWhile (· != '.') = whole ∧ t.dropWhile (· != '.') = '.' :: afterPoint := by
  have hsplit := List.takeWhile_append_dropWhile (p := (· != '.')) (l := t)
  have hwhole : '.' ∉ t.takeWhile (· != '.') := by
    intro h
    simpa using List.mem_takeWhile_imp h
  cases hdrop : t.dropWhile (· != '.') with
  | nil =>
    rw [hdrop, List.append_nil] at hsplit
    rw [hsplit] at hwhole
    exact Or.inl ⟨hsplit, rfl, hwhole⟩
  | cons p afterPoint =>
    obtain rfl : p = '.' := by
      have := List.head_dropWhile_not (· != '.') (l := t) (by rw [hdrop]; simp)
      simpa [hdrop] using this
    rw [hdrop] at hsplit
    exact Or.inr ⟨_, afterPoint, hsplit.symm, hwhole, rfl, rfl⟩

theorem exists_isDigit_iff {whole afterPoint : Text} (hwhole : '.' ∉ whole)
    (hafter : '.' ∉ afterPoint)
    (hdigit : ∀ c ∈ whole ++ '.' :: afterPoint, c ≠ '.' → c.isDigit = true) :
    (∃ c ∈ whole ++ '.' :: afterPoint, c.isDigit = true) ↔ ¬(whole = [] ∧ afterPoint = []) := by
  constructor
  · rintro ⟨d, hd, hdd⟩ ⟨rfl, rfl⟩
    exact Decimal.ne_of_isDigit hdd rfl (by simpa using hd)
  · intro hne
    obtain ⟨d, hd⟩ : ∃ d, d ∈ whole ++ afterPoint :=
      List.exists_mem_of_ne_nil _ (by simpa using hne)
    have hpoint : d ≠ '.' := by
      rintro rfl
      simp [hwhole, hafter] at hd
    have hmem : d ∈ whole ++ '.' :: afterPoint := by
      rw [List.mem_append, List.mem_cons]
      exact (List.mem_append.mp hd).imp_right Or.inr
    exact ⟨d, hmem, hdigit d hmem hpoint⟩

theorem malformedPart?_eq_none_iff {t : Text} (ht : ∀ c ∈ t, isNumeric c = true) (hne : t ≠ []) :
    malformedPart? t = none ↔ Decimal.isNumeral t = true := by
  have hdigit : ∀ c ∈ t, c ≠ '.' → c.isDigit = true := by
    intro c hc hpoint
    exact (isNumeric_iff.mp (ht c hc)).resolve_right hpoint
  have hclass : ∀ c ∈ t, c.isDigit = true ∨ c = '.' := fun c hc => isNumeric_iff.mp (ht c hc)
  rw [Decimal.isNumeral_iff, and_iff_right hclass]
  simp only [malformedPart?]
  obtain ⟨htake, hdrop, hnone⟩ | ⟨whole, afterPoint, rfl, hwhole, htake, hdrop⟩ := split_at_point t
  · rw [htake, hdrop]
    obtain ⟨c, hc⟩ := List.exists_mem_of_ne_nil t hne
    have hd : c.isDigit = true := hdigit c hc fun h => hnone (h ▸ hc)
    simp only [true_iff]
    exact ⟨by rw [List.count_eq_zero.mpr hnone]; exact Nat.zero_le 1, c, hc, hd⟩
  · rw [htake, hdrop, List.count_append, List.count_cons_self, List.count_eq_zero.mpr hwhole]
    obtain ⟨hfraction, hend, hnone⟩ | ⟨fraction, rest, rfl, hnone, hfraction, hend⟩ :=
      split_at_point afterPoint
    · rw [exists_isDigit_iff hwhole hnone hdigit]
      simp [hfraction, hend, List.count_eq_zero.mpr hnone]
    · simp [hend]

theorem scan_numeral {t rest : Text} (h : Decimal.isNumeral t = true) (hrest : EndsRun rest) :
    scan (t ++ rest) = (number t :: ·) <$> scan rest := by
  obtain ⟨hclass, -, d, hd, -⟩ := Decimal.isNumeral_iff.mp h
  have hnum : ∀ c ∈ t, isNumeric c = true := fun c hc => isNumeric_iff.mpr (hclass c hc)
  cases t with
  | nil => cases hd
  | cons c run =>
    have hc : isNumeric c = true := hnum c List.mem_cons_self
    have hrun := takeWhile_run (fun c hc => hnum c (List.mem_cons_of_mem _ hc))
      (fun c hc => (hrest c hc).1)
    have hpart : malformedPart? (c :: run) = none :=
      (malformedPart?_eq_none_iff hnum (List.cons_ne_nil c run)).mpr h
    rw [List.cons_append, scan]
    simp [isWhiteSpace_of_isNumeric hc, ofSymbol?_eq_none (Or.inl hc), hc, hrun.1, hrun.2, hpart]

theorem scan_name {t rest : Text} (hne : t ≠ []) (h : ∀ c ∈ t, isAlphabetic c = true)
    (hrest : EndsRun rest) : scan (t ++ rest) = (name (lowerCase t) :: ·) <$> scan rest := by
  cases t with
  | nil => exact absurd rfl hne
  | cons c run =>
    have hc : isAlphabetic c = true := h c List.mem_cons_self
    have hrun := takeWhile_run (fun c hc => h c (List.mem_cons_of_mem _ hc))
      (fun c hc => (hrest c hc).2)
    rw [List.cons_append, scan]
    simp [isWhiteSpace_of_isAlphabetic hc, ofSymbol?_eq_none (Or.inr hc), hc,
      isNumeric_of_isAlphabetic hc, hrun.1, hrun.2]

theorem scan_of_symbol {c : Char} {t : Token} (h : ofSymbol? c = some t) (rest : Text) :
    scan (c :: rest) = (t :: ·) <$> scan rest :=
  scan_symbol (classes_of_ofSymbol? h).1 h rest

theorem append_map_append (ts us : List Token) (x : Except Refusal (List Token)) :
    (ts ++ ·) <$> (us ++ ·) <$> x = (ts ++ us ++ ·) <$> x := by
  cases x with
  | error refusal => rfl
  | ok vs => exact congrArg Except.ok (List.append_assoc ts us vs).symm

theorem takeWhile_append_stop {p : Char → Bool} {t rest : Text}
    (hrest : (∀ c ∈ t, p c = true) → ∀ c ∈ rest.head?, p c = false) :
    (t ++ rest).takeWhile p = t.takeWhile p ∧ (t ++ rest).dropWhile p = t.dropWhile p ++ rest := by
  induction t with
  | nil => exact takeWhile_run (by simp) (hrest (by simp))
  | cons c t ih =>
    by_cases hc : p c = true
    · have ih := ih fun ht => hrest (List.forall_mem_cons.mpr ⟨hc, ht⟩)
      simp [hc, ih]
    · simp [hc]

def SameRun (c d : Char) : Prop :=
  isNumeric c = true ∧ isNumeric d = true ∨ isAlphabetic c = true ∧ isAlphabetic d = true

/-- One run would reach from the end of a text into the next one. -/
def Joins (before after : Text) : Prop :=
  ∃ c ∈ before.getLast?, ∃ d ∈ after.head?, SameRun c d

theorem Joins.of_suffix {t u rest : Text} (h : Joins u rest) (hu : u <:+ t) : Joins t rest := by
  obtain ⟨t', rfl⟩ := hu
  obtain ⟨c, hc, hjoins⟩ := h
  exact ⟨c, by rw [List.getLast?_append, Option.mem_def.mp hc]; rfl, hjoins⟩

theorem EndsRun.not_joins {rest : Text} (h : EndsRun rest) (t : Text) : ¬Joins t rest := by
  rintro ⟨c, -, d, hd, ⟨-, hnumeric⟩ | ⟨-, halphabetic⟩⟩
  · rw [(h d hd).1] at hnumeric
    cases hnumeric
  · rw [(h d hd).2] at halphabetic
    cases halphabetic

theorem run_append_of_not_joins {p : Char → Bool}
    (hp : ∀ c d, p c = true → p d = true → SameRun c d) {c : Char} {t rest : Text}
    (h : ¬Joins (c :: t) rest) (hc : p c = true) :
    (t ++ rest).takeWhile p = t.takeWhile p ∧ (t ++ rest).dropWhile p = t.dropWhile p ++ rest := by
  refine takeWhile_append_stop fun ht d hd => ?_
  rw [Bool.eq_false_iff]
  intro hpd
  have hlast := List.getLast?_eq_some_getLast (List.cons_ne_nil c t)
  have hall : ∀ d ∈ c :: t, p d = true := List.forall_mem_cons.mpr ⟨hc, ht⟩
  exact h ⟨_, hlast, d, hd, hp _ d (hall _ (List.getLast_mem _)) hpd⟩

/-- Tokens are cut from left to right, and what follows changes nothing before it as long as no
run reaches across. -/
theorem scan_append_of_not_joins {t rest : Text} (h : ¬Joins t rest) :
    scan (t ++ rest) = (do let ts ← scan t; (ts ++ ·) <$> scan rest) := by
  have hcons (token : Token) (x : Except Refusal (List Token)) :
      (token :: ·) <$> (do let ts ← x; (ts ++ ·) <$> scan rest) =
        (do let ts ← (token :: ·) <$> x; (ts ++ ·) <$> scan rest) := by
    cases x with
    | error refusal => rfl
    | ok ts => exact append_map_append [token] ts _
  have hsuffix {c : Char} {t u : Text} (h : ¬Joins (c :: t) rest) (hu : u <:+ t) :
      ¬Joins u rest := fun hjoins => h (hjoins.of_suffix (hu.trans (List.suffix_cons c t)))
  fun_induction scan t with
  | case1 => exact (id_map _).symm
  | case2 c t hblank ih =>
    rw [List.cons_append, scan_blank hblank, ih (hsuffix h (List.suffix_refl t))]
  | case3 c t hblank symbol hsymbol ih =>
    rw [List.cons_append, scan_of_symbol hsymbol, ih (hsuffix h (List.suffix_refl t)), hcons]
  | case4 c t hblank hsymbol hnum run part hpart =>
    have hnumeric := run_append_of_not_joins (fun _ _ hc hd => Or.inl ⟨hc, hd⟩) h hnum
    rw [List.cons_append, scan]
    simp only [hblank, hsymbol, hnum, hnumeric.1]
    simp [run, hpart]
    rfl
  | case5 c t hblank hsymbol hnum run hpart ih =>
    have hnumeric := run_append_of_not_joins (fun _ _ hc hd => Or.inl ⟨hc, hd⟩) h hnum
    have ih := ih (hsuffix h (List.dropWhile_suffix _))
    rw [List.cons_append, scan]
    simp only [hblank, hsymbol, hnum, hnumeric, ih, ← hcons]
    simp [run, hpart]
  | case6 c t hblank hsymbol hnum halpha run ih =>
    have halphabetic := run_append_of_not_joins (fun _ _ hc hd => Or.inr ⟨hc, hd⟩) h halpha
    have ih := ih (hsuffix h (List.dropWhile_suffix _))
    rw [List.cons_append, scan]
    simp only [hblank, hsymbol, hnum, halpha, halphabetic, ih, ← hcons]
    simp [run]
  | case7 c t hblank hsymbol hnum halpha =>
    rw [List.cons_append, scan]
    simp [hblank, hsymbol, hnum, halpha]
    rfl

theorem scan_append {rest : Text} (hrest : EndsRun rest) (t : Text) :
    scan (t ++ rest) = (do let ts ← scan t; (ts ++ ·) <$> scan rest) :=
  scan_append_of_not_joins (hrest.not_joins t)

end Token

end Stepwise
