import Mathlib.Logic.Relation
import Stepwise.Proofs.Results

namespace Stepwise

open Stepwise.Expr

namespace Unicode

/-- The code points of the capitals from A to Z. -/
def plainCapitals : List Nat :=
  List.range' 0x41 26

theorem toLower_eq_or_mem (c : Char) : c.toLower = c ∨ c.toNat ∈ plainCapitals := by
  by_cases hc : 0x41 ≤ c.toNat ∧ c.toNat < 0x41 + 26
  · exact Or.inr (List.mem_range'_1.mpr hc)
  · refine Or.inl (dif_neg ?_)
    rintro ⟨hfirst, hlast⟩
    have hfirst : 0x41 ≤ c.toNat := UInt32.le_iff_toNat_le.mp hfirst
    have hlast : c.toNat ≤ 0x5A := UInt32.le_iff_toNat_le.mp hlast
    omega

/-- What is the same for the capitals from A to Z and their small letters is the same for every
character and its lower case. -/
theorem apply_toLower {α : Type} {f : Char → α}
    (h : ∀ n ∈ plainCapitals, f (Char.ofNat n).toLower = f (Char.ofNat n)) (c : Char) :
    f c.toLower = f c := by
  obtain hc | hc := toLower_eq_or_mem c
  · rw [hc]
  · have := h _ hc
    rwa [Char.ofNat_toNat] at this

theorem isCased_toLower (c : Char) : isCased c.toLower = isCased c :=
  apply_toLower (by decide +kernel) c

theorem isCaseIgnorable_toLower (c : Char) : isCaseIgnorable c.toLower = isCaseIgnorable c :=
  apply_toLower (by decide +kernel) c

theorem lowerChar_toLower (c : Char) : lowerChar c.toLower = lowerChar c :=
  apply_toLower (by decide +kernel) c

theorem toLower_eq_sigma_iff (c : Char) : c.toLower = 'Σ' ↔ c = 'Σ' :=
  decide_eq_decide.mp (apply_toLower (f := fun c => decide (c = 'Σ')) (by decide +kernel) c)

theorem isAlphabetic_toLower (c : Char) : isAlphabetic c.toLower = isAlphabetic c :=
  apply_toLower (by decide +kernel) c

theorem toLower_of_isAlphabetic_eq_false {c : Char} (h : isAlphabetic c = false) :
    c.toLower = c := by
  have hcapitals : ∀ n ∈ plainCapitals, isAlphabetic (Char.ofNat n) = true := by decide +kernel
  refine (toLower_eq_or_mem c).resolve_right fun hc => ?_
  have := hcapitals _ hc
  rw [Char.ofNat_toNat, h] at this
  cases this

theorem facesCased_map_toLower (t : Text) : facesCased (t.map Char.toLower) = facesCased t := by
  have hignorable : isCaseIgnorable ∘ Char.toLower = isCaseIgnorable :=
    funext isCaseIgnorable_toLower
  have hcased : isCased ∘ Char.toLower = isCased := funext isCased_toLower
  rw [facesCased, List.dropWhile_map, hignorable, List.head?_map, Option.any_map]
  exact congrArg (Option.any · _) hcased

theorem lowerAfter_map_toLower (before t : Text) :
    lowerAfter (before.map Char.toLower) (t.map Char.toLower) = lowerAfter before t := by
  induction t generalizing before with
  | nil => rw [List.map_nil, lowerAfter, lowerAfter]
  | cons c t ih =>
    have ih := ih (c :: before)
    rw [List.map_cons] at ih
    simp only [List.map_cons, lowerAfter, ih, toLower_eq_sigma_iff, lowerChar_toLower,
      facesCased_map_toLower]

/-- The case of the letters from A to Z does not change the lower case of a text, not even that of
a sigma beside them. -/
theorem lowerCase_map_toLower (t : Text) : lowerCase (t.map Char.toLower) = lowerCase t :=
  lowerAfter_map_toLower [] t

end Unicode

namespace Token

open Unicode

theorem toLower_of_isNumeric {c : Char} (h : isNumeric c = true) : c.toLower = c :=
  toLower_of_isAlphabetic_eq_false (isAlphabetic_of_isNumeric h)

theorem isNumeric_toLower (c : Char) : isNumeric c.toLower = isNumeric c := by
  cases hc : isAlphabetic c with
  | false => rw [toLower_of_isAlphabetic_eq_false hc]
  | true =>
    have hlower : isAlphabetic c.toLower = true := (isAlphabetic_toLower c).trans hc
    rw [isNumeric_of_isAlphabetic hc, isNumeric_of_isAlphabetic hlower]

theorem takeWhile_map_toLower {p : Char → Bool} (hp : ∀ c, p c.toLower = p c) (t : Text) :
    (t.map Char.toLower).takeWhile p = (t.takeWhile p).map Char.toLower ∧
      (t.map Char.toLower).dropWhile p = (t.dropWhile p).map Char.toLower := by
  have hcomp : p ∘ Char.toLower = p := funext hp
  rw [List.takeWhile_map, List.dropWhile_map, hcomp]
  exact ⟨rfl, rfl⟩

theorem takeWhile_isNumeric_map_toLower (t : Text) :
    (t.map Char.toLower).takeWhile isNumeric = t.takeWhile isNumeric := by
  rw [(takeWhile_map_toLower isNumeric_toLower t).1]
  have hdigits : ∀ c ∈ t.takeWhile isNumeric, c.toLower = id c :=
    fun c hc => toLower_of_isNumeric (List.mem_takeWhile_imp hc)
  rw [List.map_congr_left hdigits, List.map_id]

/-- The case of the letters from A to Z does not matter. -/
theorem scan_map_toLower (t : Text) : scan (t.map Char.toLower) = scan t := by
  fun_induction scan t with
  | case1 => rw [List.map_nil, scan_nil]
  | case2 c t hblank ih =>
    rw [List.map_cons, toLower_of_isAlphabetic_eq_false (isAlphabetic_of_isWhiteSpace hblank),
      scan_blank hblank, ih]
  | case3 c t hblank symbol hsymbol ih =>
    have hletter := (classes_of_ofSymbol? hsymbol).2.2
    rw [List.map_cons, toLower_of_isAlphabetic_eq_false hletter, scan_of_symbol hsymbol, ih]
  | case4 c t hblank hsymbol hnum run part hpart =>
    rw [List.map_cons, toLower_of_isNumeric hnum, scan]
    simp only [hblank, hsymbol, hnum, takeWhile_isNumeric_map_toLower]
    simp [run, hpart]
  | case5 c t hblank hsymbol hnum run hpart ih =>
    rw [List.map_cons, toLower_of_isNumeric hnum, scan]
    simp only [hblank, hsymbol, hnum, takeWhile_isNumeric_map_toLower,
      (takeWhile_map_toLower isNumeric_toLower t).2, ih]
    simp [run, hpart]
  | case6 c t hblank hsymbol hnum halpha run ih =>
    have halpha' : isAlphabetic c.toLower = true := (isAlphabetic_toLower c).trans halpha
    have hlower := lowerCase_map_toLower run
    rw [List.map_cons] at hlower
    rw [List.map_cons, scan]
    simp only [isWhiteSpace_of_isAlphabetic halpha', ofSymbol?_eq_none (Or.inr halpha'),
      isNumeric_of_isAlphabetic halpha', halpha', takeWhile_map_toLower isAlphabetic_toLower, ih,
      hlower]
    rfl
  | case7 c t hblank hsymbol hnum halpha =>
    rw [Bool.not_eq_true] at hblank hnum halpha
    rw [List.map_cons, toLower_of_isAlphabetic_eq_false halpha,
      scan_unexpected hblank hsymbol hnum halpha]

/-- A blank separates, and it does nothing else. -/
theorem scan_append_blank {before after : Text} {blank : Char}
    (hblank : isWhiteSpace blank = true) (h : ¬Joins before after) :
    scan (before ++ blank :: after) = scan (before ++ after) := by
  rw [scan_append (endsRun_blank hblank _), scan_append_of_not_joins h, scan_blank hblank]

/-- A change that a reader of the tokens does not see: a blank more or less where it does not cut
or join a run, and another case for some letters from A to Z. -/
inductive Respelled : Text → Text → Prop
  | insert {before after : Text} {blank : Char} :
      isWhiteSpace blank = true → ¬Joins before after →
        Respelled (before ++ after) (before ++ blank :: after)
  | remove {before after : Text} {blank : Char} :
      isWhiteSpace blank = true → ¬Joins before after →
        Respelled (before ++ blank :: after) (before ++ after)
  | recase {t u : Text} : t.map Char.toLower = u.map Char.toLower → Respelled t u

theorem Respelled.scan_eq {t u : Text} (h : Respelled t u) : scan u = scan t := by
  cases h with
  | insert hblank hjoins => exact scan_append_blank hblank hjoins
  | remove hblank hjoins => exact (scan_append_blank hblank hjoins).symm
  | recase hlower => rw [← scan_map_toLower, ← hlower, scan_map_toLower]

theorem scan_of_respellings {t u : Text} (h : Relation.ReflTransGen Respelled t u) :
    scan u = scan t := by
  induction h with
  | refl => rfl
  | tail _ hlast ih => exact hlast.scan_eq.trans ih

end Token

/-- Only the last step shows the entry. -/
theorem calculateExpr_entry (e : Expr) (entry entry' : Text) :
    calculateExpr e entry' =
      (fun c => { c with last := ⟨entry', c.result⟩ }) <$> calculateExpr e entry := by
  rw [calculateExpr, calculateExpr]
  cases e.texts.2.mapM stepOfText with
  | error r => rfl
  | ok parts =>
    cases e.value with
    | error r => rfl
    | ok v => rfl

theorem calculate_of_scan_eq {entry entry' : Text} (h : Token.scan entry' = Token.scan entry) :
    calculate entry' = (fun c => { c with last := ⟨entry', c.result⟩ }) <$> calculate entry := by
  have hparse : parseText entry' = parseText entry := by rw [parseText, parseText, h]
  rw [calculate, calculate, hparse]
  cases parseText entry with
  | error r => rfl
  | ok e => exact calculateExpr_entry e entry entry'

/-- What a calculation gives depends on the tokens alone. Blanks and the case of the letters from
A to Z only change the last step, which repeats the entry as it was typed. -/
theorem calculate_of_respellings {entry entry' : Text}
    (h : Relation.ReflTransGen Token.Respelled entry entry') :
    Token.scan entry' = Token.scan entry ∧
      (∀ r, calculate entry' = .error r ↔ calculate entry = .error r) ∧
      ∀ c, calculate entry = .ok c → ∃ c', calculate entry' = .ok c' ∧ c'.result = c.result ∧
        ∃ parts, c.steps = parts ++ [⟨entry, c.result⟩] ∧
          c'.steps = parts ++ [⟨entry', c.result⟩] := by
  have hscan := Token.scan_of_respellings h
  have hcalculate := calculate_of_scan_eq hscan
  refine ⟨hscan, fun r => ?_, fun c hc => ?_⟩
  · rw [hcalculate]
    cases calculate entry <;> simp
  · rw [hcalculate, hc]
    refine ⟨_, rfl, rfl, c.parts, ?_, rfl⟩
    rw [Calculation.steps, last_of_calculate hc]

theorem calculate_of_respellings_twice_pi :
    Relation.ReflTransGen Token.Respelled "2*pi".toList "2 *PI\n".toList ∧
      ∃ c, calculate "2 *PI\n".toList = .ok c ∧
        c.steps = [⟨"2*pi".toList, 6.2832⟩, ⟨"2 *PI\n".toList, 6.2832⟩] := by
  have hspaced : Token.Respelled "2*pi".toList "2 *pi".toList :=
    @Token.Respelled.insert ['2'] ['*', 'p', 'i'] ' ' (by decide)
      ((Token.endsRun_symbol rfl _).not_joins _)
  have hcapitals : Token.Respelled "2 *pi".toList "2 *PI".toList := .recase (by decide)
  have hended : Token.Respelled "2 *PI".toList "2 *PI\n".toList :=
    @Token.Respelled.insert ['2', ' ', '*', 'P', 'I'] [] '\n' (by decide)
      (Token.endsRun_nil.not_joins _)
  have hrespellings : Relation.ReflTransGen Token.Respelled "2*pi".toList "2 *PI\n".toList :=
    ((Relation.ReflTransGen.single hspaced).tail hcapitals).tail hended
  let product := binary .mul (literal 2) (constant .pi)
  have hadmitted : Admitted standardLimits product := by
    refine ⟨by unfold Unsigned; decide, by simp [product, standardLimits], ?_⟩
    rw [nesting_binary]
    decide +kernel
  have hvalue : product.value = .ok (2 * NamedConstant.pi.value) := by decide +kernel
  have hstep : IsStepOf product ⟨"2*pi".toList, 6.2832⟩ := ⟨_, hvalue, by decide +kernel⟩
  have hc := calculate_of_isStepOf hadmitted hstep (.cons hstep .nil)
  obtain ⟨-, -, hsame⟩ := calculate_of_respellings hrespellings
  obtain ⟨c, hc', -, parts, hsteps, hsteps'⟩ := hsame _ hc
  obtain ⟨rfl, -⟩ := List.append_inj' hsteps rfl
  exact ⟨hrespellings, c, hc', hsteps'⟩

end Stepwise
