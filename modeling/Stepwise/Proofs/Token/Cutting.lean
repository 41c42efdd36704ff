import Stepwise.Proofs.Token.Runs

namespace Stepwise.Token

open Unicode

/-- A run of characters of one class, as long as it can be between what stands before and after
it. -/
structure IsRun (p : Char → Bool) (before run after : Text) : Prop where
  ne_nil : run ≠ []
  all : ∀ c ∈ run, p c = true
  starts : ∀ c ∈ before.getLast?, p c = false
  ends : ∀ c ∈ after.head?, p c = false

/-- Some token may contain this character. -/
def isExpected (c : Char) : Bool :=
  (ofSymbol? c).isSome || isNumeric c || isAlphabetic c

def isAdmissible (c : Char) : Bool :=
  isWhiteSpace c || isExpected c

/-- A run of digits and points, and the part of it that a refusal shows. -/
inductive Malformed : Text → Text → Prop
  | lonePoint : Malformed ['.'] ['.']
  | secondPoint {whole fraction more : Text} : '.' ∉ whole → '.' ∉ fraction →
      Malformed (whole ++ '.' :: (fraction ++ '.' :: more)) (whole ++ '.' :: fraction ++ ['.'])

/-- What is wrong with a text right after its first part. -/
inductive Offence (before : Text) : Text → Refusal → Prop
  | character {c : Char} {after : Text} :
      isAdmissible c = false → Offence before (c :: after) (.unexpectedCharacter c)
  | number {run part after : Text} : IsRun isNumeric before run after → Malformed run part →
      Offence before (run ++ after) (.malformedNumber part)

def LeftmostOffence (t : Text) (r : Refusal) : Prop :=
  ∃ before rest, t = before ++ rest ∧ Offence before rest r ∧
    ∀ before' rest' r', t = before' ++ rest' → Offence before' rest' r' →
      before.length ≤ before'.length

/-- A piece of a text, between what stands before and after it, and its tokens, if it has any. -/
inductive Piece (before : Text) : Text → Text → List Token → Prop
  | blank {c : Char} {after : Text} : isWhiteSpace c = true → Piece before [c] after []
  | symbol {c : Char} {after : Text} {s : Token} :
      ofSymbol? c = some s → Piece before [c] after [s]
  | number {run after : Text} : IsRun isNumeric before run after →
      Decimal.isNumeral run = true → Piece before run after [.number run]
  | name {run after : Text} : IsRun isAlphabetic before run after →
      Piece before run after [.name (lowerCase run)]

/-- A text, which stands after another one, is cut from left to right into pieces, and the tokens
are those of the pieces. What the cut leaves is the rest. -/
inductive Cut : Text → Text → Text → List Token → Prop
  | nil {before rest : Text} : Cut before [] rest []
  | piece {before piece done rest : Text} {tokens ts : List Token} :
      Piece before piece (done ++ rest) tokens → Cut (before ++ piece) done rest ts →
      Cut before (piece ++ done) rest (tokens ++ ts)

section Runs

theorem malformedPart?_eq_some_iff {run part : Text} :
    malformedPart? run = some part ↔ Malformed run part := by
  have hstop {whole : Text} (hwhole : '.' ∉ whole) (after : Text) :
      (whole ++ '.' :: after).takeWhile (· != '.') = whole ∧
        (whole ++ '.' :: after).dropWhile (· != '.') = '.' :: after := by
    refine takeWhile_run (fun c hc => ?_) (by simp)
    have : c ≠ '.' := fun h => hwhole (h ▸ hc)
    simpa using this
  constructor
  · intro h
    simp only [malformedPart?] at h
    obtain ⟨-, hdrop, -⟩ | ⟨whole, afterPoint, rfl, hwhole, htake, hdrop⟩ := split_at_point run
    · rw [hdrop] at h
      cases h
    · rw [htake, hdrop] at h
      obtain ⟨hfraction, hend, -⟩ | ⟨fraction, more, rfl, hnone, hfraction, hend⟩ :=
        split_at_point afterPoint
      · simp only [hfraction, hend] at h
        split at h
        · rename_i hempty
          obtain rfl := Option.some.inj h
          obtain ⟨rfl, rfl⟩ : whole = [] ∧ afterPoint = [] := by simpa using hempty
          exact .lonePoint
        · cases h
      · simp only [hfraction, hend] at h
        obtain rfl := Option.some.inj h
        exact .secondPoint hwhole hnone
  · intro h
    cases h with
    | lonePoint => rfl
    | secondPoint hwhole hfraction =>
      simp only [malformedPart?, (hstop hwhole _).1, (hstop hwhole _).2, (hstop hfraction _).1,
        (hstop hfraction _).2]

variable {p : Char → Bool} {before run after : Text}

theorem IsRun.unique {before' run' after' : Text} (h : IsRun p before run after)
    (h' : IsRun p before' run' after') (heq : run ++ after = run' ++ after') :
    run = run' ∧ after = after' := by
  obtain ⟨htake, hdrop⟩ := takeWhile_run h.all h.ends
  obtain ⟨htake', hdrop'⟩ := takeWhile_run h'.all h'.ends
  rw [heq] at htake hdrop
  exact ⟨htake.symm.trans htake', hdrop.symm.trans hdrop'⟩

/-- The run at the front of a text, when no run reaches across from what stands before. -/
theorem isRun_takeWhile (hp : ∀ c d, p c = true → p d = true → SameRun c d) {c : Char} {t : Text}
    (h : ¬Joins before (c :: t)) (hc : p c = true) :
    IsRun p before (c :: t.takeWhile p) (t.dropWhile p) where
  ne_nil := List.cons_ne_nil c _
  all := List.forall_mem_cons.mpr ⟨hc, fun d hd => List.mem_takeWhile_imp hd⟩
  starts d hd := by
    rw [Bool.eq_false_iff]
    exact fun hpd => h ⟨d, hd, c, rfl, hp d c hpd hc⟩
  ends d hd := by
    have hstop := List.head?_dropWhile_not p t
    rwa [Option.mem_def.mp hd] at hstop

theorem IsRun.isNumeral_iff (h : IsRun isNumeric before run after) :
    Decimal.isNumeral run = true ↔ (∃ c ∈ run, c.isDigit = true) ∧ run.count '.' ≤ 1 := by
  rw [Decimal.isNumeral_iff, and_iff_right fun c hc => isNumeric_iff.mp (h.all c hc)]
  exact And.comm

theorem IsRun.malformed_iff (h : IsRun isNumeric before run after) :
    (∃ part, Malformed run part) ↔ Decimal.isNumeral run = false := by
  simp only [← malformedPart?_eq_some_iff, ← Option.isSome_iff_exists, Bool.eq_false_iff, ne_eq,
    ← malformedPart?_eq_none_iff h.all h.ne_nil, Option.isSome_iff_ne_none]

end Runs

section Pieces

variable {before piece after : Text} {tokens : List Token}

theorem Piece.ne_nil (h : Piece before piece after tokens) : piece ≠ [] := by
  cases h with
  | blank | symbol => exact List.cons_ne_nil _ _
  | number h | name h => exact h.ne_nil

theorem isAdmissible_of_isNumeric {c : Char} (h : isNumeric c = true) : isAdmissible c = true := by
  simp [isAdmissible, isExpected, h]

theorem Piece.isAdmissible (h : Piece before piece after tokens) :
    ∀ c ∈ piece, isAdmissible c = true := by
  cases h with
  | blank h => simp [Token.isAdmissible, h]
  | symbol h => simp [Token.isAdmissible, isExpected, h]
  | number h => exact fun c hc => isAdmissible_of_isNumeric (h.all c hc)
  | name h => exact fun c hc => by simp [Token.isAdmissible, isExpected, h.all c hc]

/-- Digits and points stand in numbers only. -/
theorem Piece.isRun_of_isNumeric (h : Piece before piece after tokens) {c : Char} (hc : c ∈ piece)
    (hnumeric : isNumeric c = true) :
    IsRun isNumeric before piece after ∧ Decimal.isNumeral piece = true := by
  cases h with
  | blank h =>
    obtain rfl := List.mem_singleton.mp hc
    rw [isWhiteSpace_of_isNumeric hnumeric] at h
    cases h
  | symbol h =>
    obtain rfl := List.mem_singleton.mp hc
    rw [(classes_of_ofSymbol? h).2.1] at hnumeric
    cases hnumeric
  | number h hnumeral => exact ⟨h, hnumeral⟩
  | name h =>
    rw [isNumeric_of_isAlphabetic (h.all c hc)] at hnumeric
    cases hnumeric

theorem Piece.not_joins (h : Piece before piece after tokens) : ¬Joins (before ++ piece) after := by
  rintro ⟨c, hc, d, hd, hsame⟩
  rw [List.getLast?_append_of_ne_nil _ h.ne_nil] at hc
  have hc : c ∈ piece := List.mem_of_getLast? hc
  cases h with
  | blank h =>
    obtain rfl := List.mem_singleton.mp hc
    obtain ⟨hc, -⟩ | ⟨hc, -⟩ := hsame
    · simp [isWhiteSpace_of_isNumeric hc] at h
    · simp [isWhiteSpace_of_isAlphabetic hc] at h
  | symbol h =>
    obtain rfl := List.mem_singleton.mp hc
    simp [SameRun, classes_of_ofSymbol? h] at hsame
  | number h =>
    simp [SameRun, isAlphabetic_of_isNumeric (h.all c hc), h.ends d hd] at hsame
  | name h =>
    simp [SameRun, isNumeric_of_isAlphabetic (h.all c hc), h.ends d hd] at hsame

theorem Piece.scan_append (h : Piece before piece after tokens) :
    scan (piece ++ after) = (tokens ++ ·) <$> scan after := by
  have hjoins : ¬Joins piece after := fun hjoins =>
    h.not_joins (hjoins.of_suffix (List.suffix_append before piece))
  cases h with
  | blank h => exact (scan_blank h after).trans (id_map _).symm
  | symbol h => exact scan_of_symbol h after
  | number h hnumeral =>
    have hscan := scan_numeral hnumeral endsRun_nil
    rw [List.append_nil, scan_nil] at hscan
    rw [scan_append_of_not_joins hjoins, hscan]
    rfl
  | name h =>
    have hscan := scan_name h.ne_nil h.all endsRun_nil
    rw [List.append_nil, scan_nil] at hscan
    rw [scan_append_of_not_joins hjoins, hscan]
    rfl

theorem Piece.not_offence {first more : Text} {c : Char} {r : Refusal}
    (h : Piece before (first ++ c :: more) after tokens) :
    ¬Offence (before ++ first) (c :: more ++ after) r := by
  intro hoffence
  generalize hrest : c :: more ++ after = rest at hoffence
  cases hoffence with
  | character hc =>
    obtain ⟨rfl, -⟩ := List.cons.inj hrest
    rw [h.isAdmissible c (by simp)] at hc
    cases hc
  | @number run part after' hrun hpart =>
    have hnumeric : isNumeric c = true := by
      obtain ⟨d, run, rfl⟩ := List.exists_cons_of_ne_nil hrun.ne_nil
      obtain ⟨rfl, -⟩ := List.cons.inj hrest
      exact hrun.all c List.mem_cons_self
    obtain ⟨hpiece, hnumeral⟩ := h.isRun_of_isNumeric (by simp) hnumeric
    obtain rfl | ⟨first, d, rfl⟩ := List.eq_nil_or_concat' first
    · obtain ⟨rfl, -⟩ := hpiece.unique hrun hrest
      rw [hpiece.malformed_iff.mp ⟨part, hpart⟩] at hnumeral
      cases hnumeral
    · -- the run would go on from the piece
      have hd := hrun.starts d (by rw [← List.append_assoc, List.getLast?_concat]; rfl)
      rw [hpiece.all d (by simp)] at hd
      cases hd

/-- No offence begins inside a piece. -/
theorem Piece.skips (h : Piece before piece after tokens) {first rest : Text} {r : Refusal}
    (heq : piece ++ after = first ++ rest) (hoffence : Offence (before ++ first) rest r) :
    ∃ more, first = piece ++ more ∧ after = more ++ rest := by
  obtain ⟨more, rfl, hafter⟩ | ⟨inside, rfl, rfl⟩ := List.append_eq_append_iff.mp heq
  · exact ⟨more, rfl, hafter⟩
  · cases inside with
    | nil => exact ⟨[], by simp, rfl⟩
    | cons c inside => exact absurd hoffence h.not_offence

end Pieces

section Cuts

variable {before done rest t : Text} {ts : List Token}

theorem Cut.scan_append (h : Cut before done rest ts) :
    scan (done ++ rest) = (ts ++ ·) <$> scan rest := by
  induction h with
  | nil => exact (id_map _).symm
  | piece hpiece _ ih =>
    rw [List.append_assoc, hpiece.scan_append, ih]
    exact append_map_append _ _ _

theorem Cut.skips (h : Cut before done rest ts) {first more : Text} {r : Refusal}
    (heq : done ++ rest = first ++ more) (hoffence : Offence (before ++ first) more r) :
    ∃ between, first = done ++ between ∧ rest = between ++ more := by
  induction h generalizing first with
  | nil => exact ⟨first, rfl, heq⟩
  | piece hpiece _ ih =>
    rw [List.append_assoc] at heq
    obtain ⟨next, rfl, hnext⟩ := hpiece.skips heq hoffence
    rw [← List.append_assoc] at hoffence
    obtain ⟨between, rfl, hrest⟩ := ih hnext hoffence
    exact ⟨between, (List.append_assoc _ _ _).symm, hrest⟩

/-- A text that is not empty begins with a piece or with an offence. -/
theorem begins (h : ¬Joins before t) : t = [] ∨
    (∃ r, Offence before t r ∧ scan t = .error r) ∨
    ∃ piece after tokens, t = piece ++ after ∧ Piece before piece after tokens := by
  have hsplit (p : Char → Bool) (c : Char) (t : Text) :
      c :: t = c :: t.takeWhile p ++ t.dropWhile p := by simp
  have hnumeric : ∀ c d, isNumeric c = true → isNumeric d = true → SameRun c d :=
    fun _ _ hc hd => Or.inl ⟨hc, hd⟩
  have halphabetic : ∀ c d, isAlphabetic c = true → isAlphabetic d = true → SameRun c d :=
    fun _ _ hc hd => Or.inr ⟨hc, hd⟩
  fun_cases scan t with
  | case1 => exact Or.inl rfl
  | case2 c t hblank => exact Or.inr (Or.inr ⟨[c], t, [], rfl, .blank hblank⟩)
  | case3 c t hblank s hsymbol => exact Or.inr (Or.inr ⟨[c], t, [s], rfl, .symbol hsymbol⟩)
  | case4 c t hblank hsymbol hnum run part hpart =>
    have hrun := isRun_takeWhile hnumeric h hnum
    refine Or.inr (Or.inl ⟨.malformedNumber part, ?_, rfl⟩)
    rw [hsplit isNumeric]
    exact .number hrun (malformedPart?_eq_some_iff.mp hpart)
  | case5 c t hblank hsymbol hnum run hpart =>
    have hrun := isRun_takeWhile hnumeric h hnum
    have hnumeral := (malformedPart?_eq_none_iff hrun.all hrun.ne_nil).mp hpart
    exact Or.inr (Or.inr ⟨_, _, _, hsplit isNumeric c t, .number hrun hnumeral⟩)
  | case6 c t hblank hsymbol hnum halpha =>
    have hrun := isRun_takeWhile halphabetic h halpha
    exact Or.inr (Or.inr ⟨_, _, _, hsplit isAlphabetic c t, .name hrun⟩)
  | case7 c t hblank hsymbol hnum halpha =>
    refine Or.inr (Or.inl ⟨.unexpectedCharacter c, .character ?_, rfl⟩)
    simp [isAdmissible, isExpected, hblank, hsymbol, hnum, halpha]

/-- Every text is cut into pieces up to its end or to an offence. -/
theorem exists_cut (h : ¬Joins before t) : ∃ done rest ts, t = done ++ rest ∧
    Cut before done rest ts ∧
    (rest = [] ∨ ∃ r, Offence (before ++ done) rest r ∧ scan rest = .error r) := by
  induction hn : t.length using Nat.strong_induction_on generalizing before t with
  | _ n ih =>
    subst hn
    obtain rfl | ⟨r, hoffence, hscan⟩ | ⟨piece, after, tokens, rfl, hpiece⟩ := begins h
    · exact ⟨[], [], [], rfl, .nil, Or.inl rfl⟩
    · refine ⟨[], t, [], rfl, .nil, Or.inr ⟨r, ?_, hscan⟩⟩
      rwa [List.append_nil]
    · have hlength : after.length < (piece ++ after).length := by
        rw [List.length_append]
        have := List.length_pos_of_ne_nil hpiece.ne_nil
        omega
      obtain ⟨done, rest, ts, rfl, hcut, hend⟩ := ih _ hlength hpiece.not_joins rfl
      refine ⟨piece ++ done, rest, tokens ++ ts, (List.append_assoc _ _ _).symm,
        .piece hpiece hcut, ?_⟩
      rwa [← List.append_assoc]

theorem not_joins_nil (t : Text) : ¬Joins [] t := by
  rintro ⟨c, hc, -⟩
  cases hc

theorem Offence.ne_nil {r : Refusal} (h : Offence before rest r) : rest ≠ [] := by
  cases h with
  | character => exact List.cons_ne_nil _ _
  | number h => exact List.append_ne_nil_of_left_ne_nil h.ne_nil _

theorem Offence.unique {r r' : Refusal} (h : Offence before rest r) (h' : Offence before rest r') :
    r = r' := by
  have hnumber {c : Char} {after run : Text} (hrun : IsRun isNumeric before run after)
      {rest : Text} (hrest : c :: rest = run ++ after) : isAdmissible c = true := by
    obtain ⟨d, run, rfl⟩ := List.exists_cons_of_ne_nil hrun.ne_nil
    obtain ⟨rfl, -⟩ := List.cons.inj hrest
    exact isAdmissible_of_isNumeric (hrun.all c List.mem_cons_self)
  generalize hrest : rest = rest' at h'
  cases h with
  | character hc =>
    cases h' with
    | character => rw [(List.cons.inj hrest).1]
    | number hrun =>
      rw [hnumber hrun hrest] at hc
      cases hc
  | number hrun hpart =>
    cases h' with
    | character hc =>
      rw [hnumber hrun hrest.symm] at hc
      cases hc
    | number hrun' hpart' =>
      obtain ⟨rfl, -⟩ := hrun.unique hrun' hrest
      rw [← malformedPart?_eq_some_iff] at hpart hpart'
      rw [Option.some.inj (hpart.symm.trans hpart')]

theorem not_offence_iff : (∀ before rest r, t = before ++ rest → ¬Offence before rest r) ↔
    (∀ c ∈ t, isAdmissible c = true) ∧ ∀ before run after, t = before ++ run ++ after →
      IsRun isNumeric before run after → (∃ c ∈ run, c.isDigit = true) ∧ run.count '.' ≤ 1 := by
  constructor
  · intro h
    refine ⟨fun c hc => ?_, fun before run after ht hrun => ?_⟩
    · obtain ⟨before, after, rfl⟩ := List.mem_iff_append.mp hc
      by_contra hadmissible
      exact h before _ _ rfl (.character (Bool.eq_false_iff.mpr hadmissible))
    · by_contra hbad
      rw [← hrun.isNumeral_iff, Bool.not_eq_true, ← hrun.malformed_iff] at hbad
      obtain ⟨part, hpart⟩ := hbad
      exact h before _ _ (ht.trans (List.append_assoc _ _ _)) (.number hrun hpart)
  · rintro ⟨hadmissible, hruns⟩ before rest r rfl hoffence
    cases hoffence with
    | character hc =>
      rw [hadmissible _ (by simp)] at hc
      cases hc
    | number hrun hpart =>
      have hnumeral := hruns before _ _ (List.append_assoc _ _ _).symm hrun
      rw [← hrun.isNumeral_iff, hrun.malformed_iff.mp ⟨_, hpart⟩] at hnumeral
      cases hnumeral

theorem scan_cases (t : Text) : (∃ ts, scan t = .ok ts ∧ Cut [] t [] ts) ∨
    ∃ done rest ts r, t = done ++ rest ∧ Cut [] done rest ts ∧ Offence done rest r ∧
      scan t = .error r := by
  obtain ⟨done, rest, ts, rfl, hcut, hend⟩ := exists_cut (not_joins_nil t)
  rw [hcut.scan_append]
  obtain rfl | ⟨r, hoffence, hscan⟩ := hend
  · rw [List.append_nil, scan_nil]
    exact Or.inl ⟨ts, congrArg Except.ok (List.append_nil ts), hcut⟩
  · rw [hscan]
    exact Or.inr ⟨done, rest, ts, r, rfl, hcut, hoffence, rfl⟩

theorem Cut.not_offence (h : Cut [] t [] ts) {r : Refusal} (ht : t = before ++ rest) :
    ¬Offence before rest r := by
  intro hoffence
  obtain ⟨between, -, hnil⟩ := h.skips (by rwa [List.append_nil]) hoffence
  exact hoffence.ne_nil (List.append_eq_nil_iff.mp hnil.symm).2

theorem cut_iff_scan : Cut [] t [] ts ↔ scan t = .ok ts := by
  constructor
  · intro h
    have hscan := h.scan_append
    rw [List.append_nil, scan_nil] at hscan
    exact hscan.trans (congrArg Except.ok (List.append_nil ts))
  · intro h
    obtain ⟨ts', hscan, hcut⟩ | ⟨done, rest, ts', r, -, -, -, hscan⟩ := scan_cases t
    · rwa [← Except.ok.inj (hscan.symm.trans h)]
    · rw [hscan] at h
      cases h

theorem isAdmissible_of_scan (h : scan t = .ok ts) : ∀ c ∈ t, isAdmissible c = true :=
  (not_offence_iff.mp fun _ _ _ ht => (cut_iff_scan.mpr h).not_offence ht).1

theorem Cut.isNumeral (h : Cut before done rest ts) :
    ∀ n, number n ∈ ts → Decimal.isNumeral n = true := by
  induction h with
  | nil => simp
  | piece hpiece _ ih =>
    intro n hn
    obtain hn | hn := List.mem_append.mp hn
    · cases hpiece with
      | blank => cases hn
      | symbol h =>
        rw [← List.mem_singleton.mp hn] at h
        unfold ofSymbol? at h
        split at h <;> cases h
      | number _ hnumeral =>
        obtain rfl := number.inj (List.mem_singleton.mp hn)
        exact hnumeral
      | name => cases List.mem_singleton.mp hn
    · exact ih n hn

theorem isNumeral_of_scan (h : scan t = .ok ts) :
    ∀ n, number n ∈ ts → Decimal.isNumeral n = true :=
  (cut_iff_scan.mpr h).isNumeral

theorem LeftmostOffence.unique {r r' : Refusal} (h : LeftmostOffence t r)
    (h' : LeftmostOffence t r') : r = r' := by
  obtain ⟨before, rest, rfl, hoffence, hleast⟩ := h
  obtain ⟨before', rest', heq, hoffence', hleast'⟩ := h'
  have hlength : before.length = before'.length :=
    Nat.le_antisymm (hleast _ _ _ heq hoffence') (hleast' _ _ _ rfl hoffence)
  obtain ⟨rfl, rfl⟩ := List.append_inj heq hlength
  exact hoffence.unique hoffence'

end Cuts

end Stepwise.Token
