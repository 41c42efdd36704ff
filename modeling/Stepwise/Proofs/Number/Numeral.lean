import Stepwise.Number.Numeral
import Stepwise.Proofs.Number.Bits

namespace Stepwise

namespace Decimal

theorem ne_of_isDigit {c d : Char} (h : c.isDigit = true) (hd : d.isDigit = false) : c ≠ d := by
  rintro rfl
  rw [h] at hd
  cases hd

theorem takeWhile_digits {ds : Text} (h : ∀ c ∈ ds, c.isDigit = true) (rest : Text) :
    (ds ++ rest).takeWhile (· != '.') = ds ++ rest.takeWhile (· != '.') := by
  apply List.takeWhile_append_of_pos
  intro c hc
  simpa using ne_of_isDigit (h c hc) rfl

/-- A fraction with the point before it, which goes when no digit follows. -/
def pointed : Text → Text
  | [] => []
  | fraction => '.' :: fraction

@[simp]
theorem pointed_nil : pointed [] = [] := rfl

@[simp]
theorem pointed_cons (f : Char) (fs : Text) : pointed (f :: fs) = '.' :: f :: fs := rfl

theorem read_pointed {ds : Text} (h : ∀ c ∈ ds, c.isDigit = true) (fs : Text) :
    read (ds ++ pointed fs) = ⟨Nat.ofDigitChars 10 (ds ++ fs) 0, fs.length⟩ := by
  cases fs with
  | nil =>
    have hwhole := takeWhile_digits h []
    rw [List.append_nil] at hwhole
    simp [read, hwhole, List.drop_eq_nil_of_le]
  | cons f fs => simp [read, takeWhile_digits h]

theorem isDigit_of_mem_fractionDigits {n m : Nat} (hm : m < 10 ^ n) :
    ∀ c ∈ fractionDigits n m, c.isDigit = true := by
  induction n generalizing m with
  | zero => simp [fractionDigits]
  | succ n ih =>
    have hlt : m / 10 ^ n < 10 := by
      apply Nat.div_lt_of_lt_mul
      rwa [Nat.pow_succ] at hm
    rw [fractionDigits]
    split
    · simp
    · intro c hc
      obtain rfl | hc := List.mem_cons.mp hc
      · simpa using hlt
      · exact ih (Nat.mod_lt _ (Nat.pow_pos (by decide))) c hc

/-- What is cut off after the last digit are zeros. -/
theorem ofDigitChars_fractionDigits {n m : Nat} (hm : m < 10 ^ n) :
    (fractionDigits n m).length ≤ n ∧
      Nat.ofDigitChars 10 (fractionDigits n m) 0 * 10 ^ (n - (fractionDigits n m).length) = m := by
  induction n generalizing m with
  | zero =>
    have : m = 0 := by simpa using hm
    simp [fractionDigits, this]
  | succ n ih =>
    have hlt : m / 10 ^ n < 10 := by
      apply Nat.div_lt_of_lt_mul
      rwa [Nat.pow_succ] at hm
    obtain ⟨hlen, hval⟩ := ih (Nat.mod_lt m (Nat.pow_pos (by decide) : 0 < 10 ^ n))
    rw [fractionDigits]
    split
    · simp [*]
    · generalize fractionDigits n (m % 10 ^ n) = fs at hlen hval
      refine ⟨Nat.succ_le_succ hlen, ?_⟩
      have hpow : 10 ^ fs.length * 10 ^ (n - fs.length) = 10 ^ n := by
        rw [← Nat.pow_add, Nat.add_sub_cancel' hlen]
      have hcancel : n + 1 - (fs.length + 1) = n - fs.length := by omega
      calc Nat.ofDigitChars 10 ((m / 10 ^ n).digitChar :: fs) 0 * 10 ^ (n + 1 - (fs.length + 1))
          = (10 ^ fs.length * (m / 10 ^ n) + Nat.ofDigitChars 10 fs 0) * 10 ^ (n - fs.length) := by
            rw [Nat.ofDigitChars_cons_digitChar_of_lt_ten hlt, Nat.mul_zero, Nat.zero_add,
              Nat.ofDigitChars_eq_ofDigitChars_zero, hcancel]
        _ = 10 ^ n * (m / 10 ^ n) + m % 10 ^ n := by
            rw [Nat.add_mul, hval, Nat.mul_right_comm, hpow]
        _ = m := Nat.div_add_mod m (10 ^ n)

theorem isNumeral_iff {t : Text} : isNumeral t = true ↔
    (∀ c ∈ t, c.isDigit = true ∨ c = '.') ∧ t.count '.' ≤ 1 ∧ ∃ c ∈ t, c.isDigit = true := by
  simp [isNumeral, and_assoc]

def wholeDigits (d : Decimal) : Text :=
  Nat.toDigits 10 (d.numerator / 10 ^ d.places)

def fraction (d : Decimal) : Text :=
  fractionDigits d.places (d.numerator % 10 ^ d.places)

theorem isDigit_of_mem_wholeDigits (d : Decimal) : ∀ c ∈ d.wholeDigits, c.isDigit = true :=
  fun _ hc => Nat.isDigit_of_mem_toDigits (by decide) (by decide) hc

theorem isDigit_of_mem_fraction (d : Decimal) : ∀ c ∈ d.fraction, c.isDigit = true :=
  isDigit_of_mem_fractionDigits (Nat.mod_lt _ (Nat.pow_pos (by decide)))

theorem text_eq (d : Decimal) : d.text = d.wholeDigits ++ pointed d.fraction := by
  rw [text, fraction]
  cases fractionDigits d.places (d.numerator % 10 ^ d.places) with
  | nil => exact (List.append_nil _).symm
  | cons f fs => rfl

theorem count_point {ds : Text} (h : ∀ c ∈ ds, c.isDigit = true) : ds.count '.' = 0 :=
  List.count_eq_zero.mpr fun hc => ne_of_isDigit (h _ hc) rfl rfl

theorem isNumeral_pointed {ds fs : Text} (hne : ds ≠ []) (hds : ∀ c ∈ ds, c.isDigit = true)
    (hfs : ∀ c ∈ fs, c.isDigit = true) : isNumeral (ds ++ pointed fs) = true := by
  obtain ⟨d, hd⟩ := List.exists_mem_of_ne_nil ds hne
  rw [isNumeral_iff, List.count_append, count_point hds, List.forall_mem_append]
  refine ⟨⟨fun c hc => Or.inl (hds c hc), ?_⟩, ?_, d, List.mem_append_left _ hd, hds d hd⟩
  · cases fs with
    | nil => simp
    | cons f fs =>
      rw [pointed_cons, List.forall_mem_cons]
      exact ⟨Or.inr rfl, fun c hc => Or.inl (hfs c hc)⟩
  · cases fs with
    | nil => simp
    | cons f fs => rw [pointed_cons, List.count_cons_self, count_point hfs]

theorem isNumeral_text (d : Decimal) : isNumeral d.text = true := by
  rw [text_eq]
  exact isNumeral_pointed Nat.toDigits_ne_nil d.isDigit_of_mem_wholeDigits d.isDigit_of_mem_fraction

theorem read_text (d : Decimal) : read d.text =
    ⟨Nat.ofDigitChars 10 (d.wholeDigits ++ d.fraction) 0, d.fraction.length⟩ := by
  rw [text_eq, read_pointed d.isDigit_of_mem_wholeDigits]

theorem index_mul_pow (m places n : Nat) :
    (⟨m * 10 ^ n, places + n⟩ : Decimal).index = (⟨m, places⟩ : Decimal).index := by
  rw [index, index, Nat.pow_add, Binary64.nearest_mul_right _ _ (Nat.pow_pos (by decide))]

theorem ofDigitChars_append_zeros (ds : Text) (n : Nat) :
    Nat.ofDigitChars 10 (ds ++ List.replicate n '0') 0 = Nat.ofDigitChars 10 ds 0 * 10 ^ n := by
  rw [Nat.ofDigitChars_append, Nat.ofDigitChars_replicate_zero, Nat.mul_comm]

/-- A decimal and its numeral stand for the same quotient. -/
theorem index_read_text (d : Decimal) : (read d.text).index = d.index := by
  have hmod : d.numerator % 10 ^ d.places < 10 ^ d.places :=
    Nat.mod_lt _ (Nat.pow_pos (by decide))
  obtain ⟨hlen, hval⟩ := ofDigitChars_fractionDigits hmod
  change d.fraction.length ≤ d.places at hlen
  change Nat.ofDigitChars 10 d.fraction 0 * 10 ^ (d.places - d.fraction.length) = _ at hval
  have hpow : 10 ^ d.fraction.length * 10 ^ (d.places - d.fraction.length) = 10 ^ d.places := by
    rw [← Nat.pow_add, Nat.add_sub_cancel' hlen]
  have hnum : Nat.ofDigitChars 10 (d.wholeDigits ++ d.fraction) 0 *
      10 ^ (d.places - d.fraction.length) = d.numerator := by
    rw [Nat.ofDigitChars_append, Nat.ofDigitChars_eq_ofDigitChars_zero, wholeDigits,
      Nat.ofDigitChars_ten_toDigits, Nat.add_mul, hval, Nat.mul_right_comm, hpow,
      Nat.div_add_mod]
  rw [read_text, ← index_mul_pow _ _ (d.places - d.fraction.length), hnum,
    Nat.add_sub_cancel' hlen]

theorem shift_zero (d : Decimal) : d.shift 0 = d := by
  simp [shift]

def signed (negative : Bool) (size : Text) : Text :=
  if negative then '-' :: size else size

theorem splitSign_signed {m : Text} (hm : isNumeral m = true) (negative : Bool) (p : Text) :
    splitSign (signed negative (m ++ p)) = (negative, m ++ p) := by
  cases negative with
  | true => rfl
  | false =>
    obtain ⟨hclass, -, d, hd, -⟩ := isNumeral_iff.mp hm
    obtain ⟨c, m, rfl⟩ := List.exists_cons_of_ne_nil (List.ne_nil_of_mem hd)
    have hc := hclass c List.mem_cons_self
    rw [signed, if_neg Bool.false_ne_true, List.cons_append, splitSign.eq_def]
    split
    · simp_all
    · simp_all
    · rfl

theorem takeWhile_mantissa {m p : Text} (hm : isNumeral m = true) (hp : ∀ c ∈ p.head?, c = 'e') :
    (m ++ p).takeWhile (fun c => c != 'e' && c != 'E') = m := by
  obtain ⟨hclass, -, -⟩ := isNumeral_iff.mp hm
  have hmantissa : ∀ c ∈ m, (c != 'e' && c != 'E') = true := by
    intro c hc
    obtain hdigit | rfl := hclass c hc
    · have he : c ≠ 'e' := ne_of_isDigit hdigit rfl
      have hE : c ≠ 'E' := ne_of_isDigit hdigit rfl
      simp [he, hE]
    · rfl
  rw [List.takeWhile_append_of_pos hmantissa]
  cases p with
  | nil => simp
  | cons c p =>
    obtain rfl := hp c rfl
    simp

/-- A numeral may have a sign before it and a power of ten after it. -/
theorem finite?_signed_eq (negative : Bool) {m p : Text} {n : Int} (hm : isNumeral m = true)
    (hp : ∀ c ∈ p.head?, c = 'e') (hn : power? p = some n) :
    finite? (signed negative (m ++ p)) =
      if (Binary64.ofIndex negative ((read m).shift n).index).isFinite then
        some (Binary64.ofIndex negative ((read m).shift n).index) else none := by
  rw [finite?, splitSign_signed hm]
  dsimp only
  rw [takeWhile_mantissa hm hp, List.drop_left, hn]
  dsimp only [Option.bind_eq_bind, Option.bind_some]
  rw [hm, Bool.true_and]

theorem finite?_of_isNumeral {t : Text} (h : isNumeral t = true) :
    finite? t = if (Binary64.ofIndex false (read t).index).isFinite then
      some (Binary64.ofIndex false (read t).index) else none := by
  have ht := finite?_signed_eq false h (p := []) (by simp) rfl
  rwa [List.append_nil, shift_zero] at ht

/-- A text that stands for a number stands for a finite one, whatever its form. -/
theorem isFinite_of_finite? {t : Text} {v : Float} (h : finite? t = some v) :
    v.isFinite = true := by
  obtain ⟨n, -, h⟩ := Option.bind_eq_some_iff.mp h
  obtain ⟨hfinite, hv⟩ := Option.ite_none_right_eq_some.mp h
  rw [← Option.some.inj hv]
  exact (Bool.and_eq_true_iff.mp hfinite).2

theorem index_le_infinity (d : Decimal) : d.index ≤ Binary64.infinity :=
  Nat.min_le_right _ _

theorem finite?_signed (negative : Bool) {m p : Text} {n : Int} {k : Nat}
    (hm : isNumeral m = true) (hp : ∀ c ∈ p.head?, c = 'e') (hn : power? p = some n)
    (hk : ((read m).shift n).index = k) (h : k < Binary64.infinity) :
    finite? (signed negative (m ++ p)) = some (Binary64.ofIndex negative k) := by
  have hfinite : (Binary64.ofIndex negative k).isFinite = true := by
    rw [Binary64.isFinite_iff, Binary64.index_ofIndex _ (Nat.le_of_lt h)]
    exact h
  rw [finite?_signed_eq negative hm hp hn, hk, if_pos hfinite]

theorem finite?_eq {t : Text} {k : Nat} (ht : isNumeral t = true) (hk : (read t).index = k)
    (h : k < Binary64.infinity) : finite? t = some (Binary64.ofIndex false k) := by
  have hread : ((read t).shift 0).index = k := by rw [shift_zero, hk]
  have hsigned := finite?_signed false ht (p := []) (by simp) rfl hread h
  rwa [List.append_nil] at hsigned

end Decimal

open Binary64

theorem isNumeral_digits (v : Float) : Decimal.isNumeral (digits v) = true :=
  Decimal.isNumeral_text _

theorem isNaN_eq_false {v : Float} (h : index v < infinity) : v.isNaN = false := by
  change v.toModel.unpack.isNaN = false
  obtain ⟨-, hu⟩ | ⟨-, m, e, hm, -, -, hu⟩ := unpack_eq h
  all_goals rw [hu]; rfl

theorem numeral_eq {v : Float} (h : index v < infinity) (h0 : index v ≠ 0) :
    numeral v = if isNegative v then '-' :: digits v else digits v := by
  rw [numeral, if_neg h0, plainNumeral, isNaN_eq_false h]
  simp [Nat.ne_of_lt h]

theorem numeral_zero {v : Float} (h : index v = 0) : numeral v = ['0'] := by
  rw [numeral, if_pos h]

theorem isNumeral_numeral {v : Float} (h : v.isFinite = true) (hs : isNegative v = false) :
    Decimal.isNumeral (numeral v) = true := by
  by_cases h0 : index v = 0
  · rw [numeral_zero h0]
    decide
  · rw [numeral_eq (isFinite_iff.mp h) h0, hs]
    exact isNumeral_digits v

theorem finite?_numeral_of_ne_zero {v : Float} (h : v.isFinite = true) (h0 : index v ≠ 0) :
    Decimal.finite? (numeral v) = some v := by
  have hk : index v < infinity := isFinite_iff.mp h
  have hread : ((Decimal.read (digits v)).shift 0).index = index v := by
    rw [Decimal.shift_zero, digits, Decimal.index_read_text,
      Decimal.shortest_index _ (Nat.le_of_lt hk)]
  have hsigned := Decimal.finite?_signed (isNegative v) (isNumeral_digits v) (p := []) (by simp) rfl
    hread hk
  rwa [List.append_nil, Decimal.signed, ← numeral_eq hk h0,
    ofIndex_index (Nat.le_of_lt hk)] at hsigned

/-- The numeral of a number without a sign reads back as that number. -/
theorem finite?_numeral {v : Float} (h : v.isFinite = true) (hs : isNegative v = false) :
    Decimal.finite? (numeral v) = some v := by
  by_cases h0 : index v = 0
  · have hv : ofIndex false 0 = v := by
      rw [← h0, ← hs]
      exact ofIndex_index (Nat.le_of_lt (isFinite_iff.mp h))
    rw [← hv, numeral_zero (by rw [hv]; exact h0)]
    apply Decimal.finite?_eq (by decide) _ (by decide)
    have hread : Decimal.read ['0'] = ⟨0, 0⟩ := by decide
    rw [hread, Decimal.index, nearest]
    simp [divideToEven]
  · exact finite?_numeral_of_ne_zero h h0

theorem numeral_of_neg {v : Float} (h : v.isFinite = true) (hs : isNegative v = true)
    (h0 : index v ≠ 0) : numeral v = '-' :: numeral (-v) := by
  have hk : index v < infinity := isFinite_iff.mp h
  have hle := Nat.le_of_lt hk
  rw [numeral_eq hk h0, numeral_eq (by rwa [index_neg hle]) (by rwa [index_neg hle]),
    isNegative_neg hle, hs, digits, digits, index_neg hle]
  rfl

end Stepwise
