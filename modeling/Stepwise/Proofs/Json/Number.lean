import Stepwise.Report
import Stepwise.Proofs.Json.Reader
import Stepwise.Proofs.Number.Numeral
import Stepwise.Proofs.Number.Shortest
import Stepwise.Proofs.Token.Runs

namespace Stepwise.Json

open Binary64 Decimal

theorem head?_toDigits {n : Nat} (hn : 0 < n) : (Nat.toDigits 10 n).head? ≠ some '0' := by
  induction n using Nat.strongRecOn with
  | ind n ih =>
    rw [Nat.toDigits_eq_if (by decide)]
    split
    · intro h
      have hdigit : Nat.digitChar n = '0' := Option.some.inj h
      have hzero : ∀ n < 10, Nat.digitChar n = '0' → n = 0 := by decide
      have := hzero n ‹_› hdigit
      omega
    · rw [List.head?_append_of_ne_nil _ Nat.toDigits_ne_nil]
      exact ih _ (by omega) (by omega)

/-- Digits as they stand before the point of a number. -/
structure IsWhole (ds : Text) : Prop where
  isDigit : ∀ c ∈ ds, c.isDigit = true
  isWhole : isWhole ds = true

theorem isWhole_toDigits (n : Nat) : IsWhole (Nat.toDigits 10 n) := by
  have hdigits : ∀ c ∈ Nat.toDigits 10 n, c.isDigit = true :=
    fun c hc => Nat.isDigit_of_mem_toDigits (by decide) (by decide) hc
  refine ⟨hdigits, ?_⟩
  obtain rfl | hn := Nat.eq_zero_or_pos n
  · rfl
  · have hhead := head?_toDigits hn
    obtain ⟨d, ds, heq⟩ := List.exists_cons_of_ne_nil (@Nat.toDigits_ne_nil n 10)
    rw [heq] at hdigits hhead ⊢
    have hd := hdigits d List.mem_cons_self
    rw [isWhole, Bool.and_eq_true, Bool.or_eq_true, bne_iff_ne]
    exact ⟨hd, Or.inl hhead⟩

theorem IsWhole.ne_nil {ds : Text} (h : IsWhole ds) : ds ≠ [] := by
  rintro rfl
  cases h.isWhole

/-- The power of ten after a number: none, or one that is not negative. -/
inductive IsPower : Text → Int → Prop where
  | none : IsPower [] 0
  | plus (n : Nat) : IsPower ('e' :: '+' :: Nat.toDigits 10 n) n

theorem IsPower.power?_eq {p : Text} {n : Int} (h : IsPower p n) : power? p = some n := by
  cases h with
  | none => rfl
  | plus n =>
    have hdigits : (Nat.toDigits 10 n).all Char.isDigit = true :=
      List.all_eq_true.mpr (isWhole_toDigits n).isDigit
    simp [power?, splitSign, hdigits, Nat.toDigits_ne_nil]

theorem IsPower.head?_eq {p : Text} {n : Int} (h : IsPower p n) : ∀ c ∈ p.head?, c = 'e' := by
  cases h with
  | none => simp
  | plus n => simp

theorem IsPower.isDigit_eq_false {p : Text} {n : Int} (h : IsPower p n) :
    ∀ c ∈ p.head?, c.isDigit = false := by
  intro c hc
  rw [h.head?_eq c hc]
  rfl

/-- A size in the grammar of JSON that stands for the number of this index. -/
def IsSize (t : Text) (k : Nat) : Prop :=
  ∃ ds fs p n, IsWhole ds ∧ (∀ c ∈ fs, c.isDigit = true) ∧ IsPower p n ∧
    t = ds ++ pointed fs ++ p ∧ ((Decimal.read (ds ++ pointed fs)).shift n).index = k

section Grammar

variable {ds fs p : Text} {n : Int}

theorem isNumberCharacter_of_mem (hds : IsWhole ds) (hfs : ∀ c ∈ fs, c.isDigit = true)
    (hp : IsPower p n) : ∀ c ∈ ds ++ pointed fs ++ p, isNumberCharacter c = true := by
  have hdigit {c : Char} (hc : c.isDigit = true) : isNumberCharacter c = true := by
    simp [isNumberCharacter, hc]
  simp only [List.forall_mem_append]
  refine ⟨⟨fun c hc => hdigit (hds.isDigit c hc), ?_⟩, ?_⟩
  · cases fs with
    | nil => simp
    | cons f fs =>
      rw [pointed_cons, List.forall_mem_cons]
      exact ⟨rfl, fun c hc => hdigit (hfs c hc)⟩
  · cases hp with
    | none => simp
    | plus n =>
      rw [List.forall_mem_cons, List.forall_mem_cons]
      exact ⟨rfl, rfl, fun c hc => hdigit ((isWhole_toDigits n).isDigit c hc)⟩

theorem isFraction_pointed (hfs : ∀ c ∈ fs, c.isDigit = true) (hp : IsPower p n) :
    isFraction (pointed fs ++ p) = true := by
  cases fs with
  | nil =>
    have hhead : p.head? ≠ some '.' := by
      intro h
      cases hp.head?_eq '.' h
    simp [isFraction, hhead]
  | cons f fs =>
    have hf := hfs f List.mem_cons_self
    simp [isFraction, startsWithDigit, hf]

theorem isNumber_signed (negative : Bool) (hds : IsWhole ds) (hfs : ∀ c ∈ fs, c.isDigit = true)
    (hp : IsPower p n) : isNumber (signed negative (ds ++ pointed fs ++ p)) = true := by
  obtain ⟨d, ds, rfl⟩ := List.exists_cons_of_ne_nil hds.ne_nil
  have hsize : (if (signed negative (d :: ds ++ pointed fs ++ p)).head? = some '-' then
      (signed negative (d :: ds ++ pointed fs ++ p)).tail
      else signed negative (d :: ds ++ pointed fs ++ p)) = d :: ds ++ (pointed fs ++ p) := by
    have hminus : d ≠ '-' := ne_of_isDigit (hds.isDigit d List.mem_cons_self) rfl
    cases negative with
    | true => simp [signed]
    | false => simp [signed, hminus]
  have hafter : ∀ c ∈ (pointed fs ++ p).head?, c.isDigit = false := by
    cases fs with
    | nil => exact hp.isDigit_eq_false
    | cons f fs => simp
  obtain ⟨htake, hdrop⟩ := Token.takeWhile_run hds.isDigit hafter
  rw [isNumber, hsize, htake, hdrop, hds.isWhole, isFraction_pointed hfs hp]
  rfl

end Grammar

theorem readNumber_signed {t rest : Text} {k : Nat} (h : IsSize t k) (hk : k < infinity)
    (negative : Bool) (hrest : ∀ c ∈ rest.head?, isNumberCharacter c = false) :
    readNumber (signed negative t ++ rest) = some (.number (ofIndex negative k), rest) := by
  obtain ⟨ds, fs, p, n, hds, hfs, hp, rfl, hindex⟩ := h
  have hchars : ∀ c ∈ signed negative (ds ++ pointed fs ++ p), isNumberCharacter c = true := by
    have hsize := isNumberCharacter_of_mem hds hfs hp
    cases negative with
    | true => exact List.forall_mem_cons.mpr ⟨rfl, hsize⟩
    | false => exact hsize
  obtain ⟨htake, hdrop⟩ := Token.takeWhile_run hchars hrest
  have hvalue := finite?_signed negative (isNumeral_pointed hds.ne_nil hds.isDigit hfs)
    hp.head?_eq hp.power?_eq hindex hk
  have hnumber := isNumber_signed negative hds hfs hp
  simp only [readNumber, htake, hdrop, hvalue, hnumber]
  rfl

theorem isSize_text (d : Decimal) : IsSize d.text d.index := by
  refine ⟨d.wholeDigits, d.fraction, [], 0, isWhole_toDigits _, d.isDigit_of_mem_fraction, .none,
    ?_, ?_⟩
  · rw [List.append_nil, text_eq]
  · rw [← text_eq, shift_zero, index_read_text]

/-- A place after the point that holds a zero changes nothing. -/
theorem isSize_text_point_zero {d : Decimal} (h : d.text.contains '.' = false) :
    IsSize (d.text ++ ['.', '0']) d.index := by
  have hfraction : d.fraction = [] := by
    by_contra hne
    obtain ⟨f, fs, hfs⟩ := List.exists_cons_of_ne_nil hne
    rw [text_eq, hfs] at h
    simp at h
  have htext : d.text = d.wholeDigits := by
    rw [text_eq, hfraction, pointed_nil, List.append_nil]
  refine ⟨d.wholeDigits, ['0'], [], 0, isWhole_toDigits _, by simp, .none, ?_, ?_⟩
  · rw [htext, List.append_nil, pointed_cons]
  · have hread := read_pointed d.isDigit_of_mem_wholeDigits []
    rw [pointed_nil, List.append_nil, ← htext] at hread
    rw [shift_zero, read_pointed d.isDigit_of_mem_wholeDigits, ← d.index_read_text, hread, ← htext]
    have hzero := ofDigitChars_append_zeros d.text 1
    rw [List.replicate_one] at hzero
    rw [hzero]
    exact index_mul_pow _ 0 1

theorem eq_withoutTrailingZeros_append (ds : Text) :
    ∃ zeros, ds = Report.withoutTrailingZeros ds ++ List.replicate zeros '0' := by
  have hzeros : ∀ c ∈ ds.reverse.takeWhile (· == '0'), c = '0' := fun c hc => by
    simpa using List.mem_takeWhile_imp hc
  refine ⟨(ds.reverse.takeWhile (· == '0')).length, ?_⟩
  calc ds = (ds.reverse.takeWhile (· == '0') ++ ds.reverse.dropWhile (· == '0')).reverse := by
        rw [List.takeWhile_append_dropWhile, List.reverse_reverse]
    _ = (ds.reverse.dropWhile (· == '0')).reverse ++
          (ds.reverse.takeWhile (· == '0')).reverse := List.reverse_append
    _ = _ := by
        rw [List.eq_replicate_of_mem hzeros, List.reverse_replicate, List.length_replicate]
        rfl

/-- The point goes after the first digit, and the power of ten makes up for it and for the zeros
that are left out. -/
theorem isSize_jsonExponential {m : Nat} (hm : 0 < m) :
    IsSize (Report.jsonExponential (Nat.toDigits 10 m)) (nearest m 1) := by
  have hdigits := (isWhole_toDigits m).isDigit
  have hhead := head?_toDigits hm
  have hvalue : Nat.ofDigitChars 10 (Nat.toDigits 10 m) 0 = m := Nat.ofDigitChars_ten_toDigits
  obtain ⟨zeros, hzeros⟩ := eq_withoutTrailingZeros_append (Nat.toDigits 10 m)
  generalize Nat.toDigits 10 m = ds at hdigits hhead hvalue hzeros
  cases hkept : Report.withoutTrailingZeros ds with
  | nil =>
    -- zeros alone would be left out, but the first digit is none
    rw [hkept, List.nil_append] at hzeros
    subst hzeros
    cases zeros with
    | zero => exact absurd hvalue.symm (Nat.ne_of_gt hm)
    | succ zeros => exact absurd rfl hhead
  | cons f fs =>
    rw [hkept] at hzeros
    have hmantissa : Report.jsonExponential ds =
        [f] ++ pointed fs ++ ('e' :: '+' :: Nat.toDigits 10 (fs.length + zeros)) := by
      have hlength : ds.length - 1 = fs.length + zeros := by simp [hzeros]
      rw [Report.jsonExponential, hkept, hlength]
      cases fs <;> simp
    subst hzeros
    obtain ⟨hf, hfs⟩ := List.forall_mem_cons.mp (List.forall_mem_append.mp hdigits).1
    have hwhole : IsWhole [f] := by
      have hne : f ≠ '0' := by simpa using hhead
      refine ⟨by simpa using hf, ?_⟩
      simp [isWhole, startsWithDigit, hf, hne]
    refine ⟨[f], fs, _, _, hwhole, hfs, .plus _, hmantissa, ?_⟩
    rw [ofDigitChars_append_zeros] at hvalue
    rw [read_pointed hwhole.isDigit, List.singleton_append]
    generalize Nat.ofDigitChars 10 (f :: fs) 0 = digits at hvalue
    have hshift : (⟨digits, fs.length⟩ : Decimal).shift ((fs.length + zeros : Nat) : Int) =
        ⟨m * 10 ^ fs.length, 0 + fs.length⟩ := by
      rw [shift, Int.toNat_natCast, Int.toNat_neg_natCast, ← hvalue, Nat.pow_add, Nat.mul_assoc,
        Nat.mul_comm (10 ^ zeros), Nat.zero_add]
      rfl
    rw [hshift, index_mul_pow]
    rfl

theorem isSize_jsonSize {d : Decimal} (h : 10 ^ 16 ≤ d.numerator / 10 ^ d.places →
    10 ^ d.places ∣ d.numerator) : IsSize (Report.jsonSize d) d.index := by
  unfold Report.jsonSize
  dsimp only
  split
  · next hlarge =>
    obtain ⟨m, hm⟩ := h hlarge
    have hindex : d.index = nearest m 1 := by
      have hwhole := index_mul_pow m 0 d.places
      rwa [Nat.zero_add, Nat.mul_comm, ← hm] at hwhole
    rw [hm, Nat.mul_div_cancel_left _ (Nat.pow_pos (by decide))] at hlarge ⊢
    rw [hindex]
    exact isSize_jsonExponential (by omega)
  · split
    · exact isSize_text d
    · next h => exact isSize_text_point_zero (by simpa using h)

theorem isSize_of_finite {v : Float} (hv : v.isFinite = true) :
    IsSize (Report.jsonSize (Decimal.shortest .even (Binary64.index v))) (Binary64.index v) := by
  have hsize := isSize_jsonSize (@dvd_shortest .even (Binary64.index v))
  rwa [shortest_index _ (index_le_infinity hv)] at hsize

/-- A number in a document reads back as the number it was. -/
theorem readNumber_jsonNumber {v : Float} (hv : v.isFinite = true) {rest : Text}
    (hrest : ∀ c ∈ rest.head?, isNumberCharacter c = false) :
    readNumber (Report.jsonNumber v ++ rest) = some (.number v, rest) := by
  have hread := readNumber_signed (isSize_of_finite hv) (isFinite_iff.mp hv) (isNegative v) hrest
  rwa [ofIndex_index (index_le_infinity hv)] at hread

theorem exists_jsonNumber_eq_cons {v : Float} (hv : v.isFinite = true) :
    ∃ c t, Report.jsonNumber v = c :: t ∧ (c = '-' ∨ c.isDigit = true) := by
  obtain ⟨ds, fs, p, n, hds, -, -, hsize, -⟩ := isSize_of_finite hv
  obtain ⟨d, ds, rfl⟩ := List.exists_cons_of_ne_nil hds.ne_nil
  rw [Report.jsonNumber, hsize]
  cases isNegative v with
  | true => exact ⟨'-', _, rfl, Or.inl rfl⟩
  | false => exact ⟨d, _, rfl, Or.inr (hds.isDigit d List.mem_cons_self)⟩

end Stepwise.Json
