import Stepwise.Proofs.Json.Number

namespace Stepwise

theorem Text.joined_cons (separator first : Text) (rest : List Text) :
    Text.joined separator (first :: rest) = first ++ (rest.map (separator ++ ·)).flatten := by
  induction rest generalizing first with
  | nil => simp [Text.joined]
  | cons second rest ih =>
    have hjoined := ih second
    rw [Text.joined] at hjoined ⊢
    rw [List.intercalate_cons_cons, hjoined, List.map_cons, List.flatten_cons, List.append_assoc,
      List.append_assoc]

namespace Json

open Reader

theorem readCodeUnits_of_lt {n : Nat} (h : n < 0x20) (rest : Text) :
    readCodeUnits ('0' :: '0' :: Nat.digitChar (n / 16) :: Nat.digitChar (n % 16) :: rest) =
      some (Char.ofNat n, rest) := by
  have hhex : ∀ d < 16, hexDigit? (Nat.digitChar d) = some d := by decide
  have hzero : hexDigit? '0' = some 0 := rfl
  have hunit : n / 16 * 16 + n % 16 = n := by omega
  have hsmall : n < 0xD800 := by omega
  simp [readCodeUnits, readCodeUnit, hzero, hhex (n / 16) (by omega), hhex (n % 16) (by omega),
    hunit, hsmall]

/-- Every character can stand in a string, if need be in an escape. -/
theorem isItem_jsonChar (c : Char) : IsItem endOfString? readCharacter (Report.jsonChar c) c := by
  unfold Report.jsonChar
  split
  case h_8 hquote hbackslash _ _ _ _ _ =>
    split
    · refine ⟨by simp, fun rest => rfl, fun rest => ?_⟩
      have hread := readCodeUnits_of_lt ‹c.toNat < 0x20› rest
      rw [Char.ofNat_toNat] at hread
      exact hread
    · refine ⟨by simp, fun rest => ?_, fun rest => ?_⟩
      · exact endOfString?.eq_2 _ fun _ h => hquote (List.head_eq_of_cons_eq h)
      · rw [List.singleton_append, readCharacter.eq_3 _ _ hbackslash, if_neg ‹_›]
  all_goals exact ⟨by simp, fun rest => rfl, fun rest => rfl⟩

theorem readString_flatMap (t rest : Text) :
    readString (t.flatMap Report.jsonChar ++ '"' :: rest) = some (t, rest) := by
  have hitems : List.Forall₂ (IsItem endOfString? readCharacter) (t.map Report.jsonChar) t := by
    rw [List.forall₂_map_left_iff, List.forall₂_same]
    exact fun c _ => isItem_jsonChar c
  rw [List.flatMap_def]
  exact items_of_forall₂ hitems rfl

theorem jsonString_append (t rest : Text) :
    Report.jsonString t ++ rest = '"' :: (t.flatMap Report.jsonChar ++ '"' :: rest) := by
  simp [Report.jsonString]

section Values

variable {n : Nat} {α : Type} {item : Reader α}

theorem skipBlanks_append {blanks : Text} (h : ∀ c ∈ blanks, isBlank c = true) (t : Text) :
    skipBlanks (blanks ++ t) = skipBlanks t :=
  List.dropWhile_append_of_pos h

theorem skipBlanks_cons {c : Char} (h : isBlank c = false) (t : Text) :
    skipBlanks (c :: t) = c :: t := by
  simp [skipBlanks, h]

theorem readValue_append {blanks : Text} (h : ∀ c ∈ blanks, isBlank c = true) (t : Text) :
    readValue n (blanks ++ t) = readValue n t := by
  cases n with
  | zero => rfl
  | succ n => rw [readValue, readValue, skipBlanks_append h]

theorem readValue_string (t rest : Text) :
    readValue (n + 1) (Report.jsonString t ++ rest) = some (.string t, rest) := by
  rw [jsonString_append, readValue, skipBlanks_cons rfl]
  simp only [readString_flatMap]
  rfl

theorem readValue_eq_readNumber {c : Char} (h : c = '-' ∨ c.isDigit = true) (t : Text) :
    readValue (n + 1) (c :: t) = readNumber (c :: t) := by
  have hne (d : Char) (hd : d.isDigit = false) (hminus : d ≠ '-') : c ≠ d := by
    obtain rfl | h := h
    · exact hminus.symm
    · exact Decimal.ne_of_isDigit h hd
  have hblank : isBlank c = false := by
    simp [isBlank, hne]
  rw [readValue, skipBlanks_cons hblank]
  split
  case h_7 => rfl
  all_goals
    rename_i heq
    exact absurd (List.head_eq_of_cons_eq heq) (hne _ rfl (by decide))

theorem readValue_number {v : Float} (hv : v.isFinite = true) {rest : Text}
    (hrest : ∀ c ∈ rest.head?, isNumberCharacter c = false) :
    readValue (n + 1) (Report.jsonNumber v ++ rest) = some (.number v, rest) := by
  obtain ⟨c, t, heq, hc⟩ := exists_jsonNumber_eq_cons hv
  rw [← readNumber_jsonNumber hv hrest, heq, List.cons_append, readValue_eq_readNumber hc]

theorem readMember_eq {blanks : Text} (h : ∀ c ∈ blanks, isBlank c = true) (name : Text)
    {t rest : Text} {x : α} (hx : item t = some (x, rest)) :
    readMember item (blanks ++ (Report.jsonString name ++ ':' :: t)) = some ((name, x), rest) := by
  rw [readMember, skipBlanks_append h, jsonString_append, skipBlanks_cons rfl]
  simp only [readString_flatMap]
  simp [skipBlanks_cons, isBlank, hx]

theorem readList_cons {close : Char} {t rest rest' : Text} {x : α} {xs : List α}
    (hgoes : endOfList? close t = none) (hx : item t = some (x, rest))
    (hxs : items (endOfList? close) (readAfterComma item) rest = some (xs, rest')) :
    readList item close t = some (x :: xs, rest') := by
  rw [readList, hgoes]
  simp [hx, hxs]

theorem endOfList?_append {blanks : Text} (h : ∀ c ∈ blanks, isBlank c = true) {c : Char}
    (hc : isBlank c = false) (close : Char) (t : Text) :
    endOfList? close (blanks ++ c :: t) = if c = close then some t else none := by
  rw [endOfList?, skipBlanks_append h, skipBlanks_cons hc]

theorem items_comma {close : Char} (hclose : ',' ≠ close) {t rest : Text} {x : α}
    (hx : item t = some (x, rest)) (hlength : rest.length ≤ t.length) :
    items (endOfList? close) (readAfterComma item) (',' :: t) =
      (items (endOfList? close) (readAfterComma item) rest).map
        fun (xs, rest) => (x :: xs, rest) := by
  have hgoes : endOfList? close (',' :: t) = none := by
    rw [endOfList?, skipBlanks_cons rfl]
    exact if_neg hclose
  have hitem : readAfterComma item (',' :: t) = some (x, rest) := by
    rw [readAfterComma, skipBlanks_cons rfl]
    exact hx
  exact items_cons hgoes hitem (Nat.lt_succ_of_le hlength)

theorem readValue_array {t rest : Text} {items : List Json}
    (h : readList (readValue n) ']' t = some (items, rest)) :
    readValue (n + 1) ('[' :: t) = some (.array items, rest) := by
  rw [readValue, skipBlanks_cons rfl]
  simp only [h]
  rfl

/-- An object with two members, each on a line of its own. -/
theorem readValue_two_members {indent outdent : Text} (hindent : ∀ c ∈ indent, isBlank c = true)
    (houtdent : ∀ c ∈ outdent, isBlank c = true) (a b : Text) {s t rest : Text} {x y : Json}
    (hx : ∀ rest, readValue n (s ++ ',' :: rest) = some (x, ',' :: rest))
    (hy : readValue n (t ++ (outdent ++ '\x7d' :: rest)) = some (y, outdent ++ '\x7d' :: rest)) :
    readValue (n + 1) ('\x7b' :: (indent ++ (Report.jsonString a ++ ':' :: (s ++ ',' :: (indent ++
      (Report.jsonString b ++ ':' :: (t ++ (outdent ++ '\x7d' :: rest)))))))) =
        some (.object [(a, x), (b, y)], rest) := by
  have hquote : isBlank '"' = false := rfl
  have hfirst (after : Text) :
      endOfList? '\x7d' (indent ++ (Report.jsonString a ++ after)) = none := by
    rw [jsonString_append, endOfList?_append hindent hquote]
    rfl
  have hend : endOfList? '\x7d' (outdent ++ '\x7d' :: rest) = some rest := by
    rw [endOfList?_append houtdent rfl, if_pos rfl]
  have hsecond : items (endOfList? '\x7d') (readAfterComma (readMember (readValue n)))
      (',' :: (indent ++ (Report.jsonString b ++ ':' :: (t ++ (outdent ++ '\x7d' :: rest))))) =
        some ([(b, y)], rest) := by
    rw [items_comma (by decide) (readMember_eq hindent b hy), items_stop hend]
    · rfl
    · simp only [List.length_cons, List.length_append]
      omega
  have hmembers := readList_cons (hfirst _) (readMember_eq hindent a (hx _)) hsecond
  rw [readValue, skipBlanks_cons rfl]
  simp only [hmembers]
  rfl

end Values

end Json

/-- A step in a document. -/
def Step.document (step : Step) : Json :=
  .object [("expression".toList, .string step.expression), ("resultat".toList, .number step.result)]

def Calculation.document (c : Calculation) : Json :=
  .object [("etapes".toList, .array (c.steps.map Step.document)),
    ("resultat".toList, .number c.result)]

theorem Calculation.eq_of_steps_eq {c d : Calculation} (h : c.steps = d.steps) : c = d := by
  obtain ⟨hparts, hlast⟩ := List.append_inj' h rfl
  obtain ⟨parts, last⟩ := c
  rw [Calculation.mk.injEq]
  exact ⟨hparts, List.singleton_inj.mp hlast⟩

theorem Step.document_injective : Function.Injective Step.document := by
  rintro ⟨t, v⟩ ⟨t', v'⟩ h
  simpa [document] using h

theorem Calculation.document_injective : Function.Injective Calculation.document := by
  intro c d h
  have hmembers : c.steps.map Step.document = d.steps.map Step.document ∧ c.result = d.result := by
    simpa [document] using h
  exact eq_of_steps_eq (List.map_injective_iff.mpr Step.document_injective hmembers.1)

namespace Json

open Reader

/-- The end of a line and the blanks that the next one begins with. -/
def indentation (n : Nat) : Text :=
  '\n' :: List.replicate n ' '

theorem isBlank_of_mem_replicate (n : Nat) : ∀ c ∈ List.replicate n ' ', isBlank c = true := by
  intro c hc
  rw [List.eq_of_mem_replicate hc]
  rfl

theorem isBlank_of_mem_indentation (n : Nat) : ∀ c ∈ indentation n, isBlank c = true :=
  List.forall_mem_cons.mpr ⟨rfl, isBlank_of_mem_replicate n⟩

theorem isBlank_of_mem_space : ∀ c ∈ [' '], isBlank c = true :=
  isBlank_of_mem_replicate 1

theorem jsonStep_append (step : Step) (rest : Text) : Report.jsonStep step ++ rest =
    List.replicate 4 ' ' ++ ('\x7b' :: (indentation 6 ++ (Report.jsonString "expression".toList ++
      ':' :: (([' '] ++ Report.jsonString step.expression) ++ ',' :: (indentation 6 ++
        (Report.jsonString "resultat".toList ++ ':' :: (([' '] ++ Report.jsonNumber step.result) ++
          (indentation 4 ++ '\x7d' :: rest)))))))) := by
  -- the fixed texts apart, so that the rewriting never compares two of them
  have hopening : "    \x7b\n      \"expression\": ".toList = List.replicate 4 ' ' ++ '\x7b' ::
      (indentation 6 ++ (Report.jsonString "expression".toList ++ [':', ' '])) := by decide +kernel
  have hbetween : ",\n      \"resultat\": ".toList = ',' :: (indentation 6 ++
      (Report.jsonString "resultat".toList ++ [':', ' '])) := by decide +kernel
  have hclosing : "\n    \x7d".toList = indentation 4 ++ ['\x7d'] := by decide +kernel
  unfold Report.jsonStep
  simp only [hopening, hbetween, hclosing]
  simp only [List.append_assoc, List.cons_append, List.nil_append]

/-- A step on lines of its own. -/
theorem readValue_jsonStep {step : Step} (h : step.result.isFinite = true) (n : Nat) (rest : Text) :
    readValue (n + 2) ('\n' :: (Report.jsonStep step ++ rest)) = some (step.document, rest) := by
  rw [jsonStep_append]
  change readValue (n + 2) (indentation 4 ++ _) = _
  rw [readValue_append (isBlank_of_mem_indentation 4)]
  apply readValue_two_members (isBlank_of_mem_indentation 6) (isBlank_of_mem_indentation 4)
  · intro rest
    rw [List.append_assoc, readValue_append isBlank_of_mem_space, readValue_string]
  · rw [List.append_assoc, readValue_append isBlank_of_mem_space]
    exact readValue_number h (by simp [indentation, isNumberCharacter])

theorem isItem_jsonStep {step : Step} (h : step.result.isFinite = true) (n : Nat) :
    IsItem (endOfList? ']') (readAfterComma (readValue (n + 2)))
      ([',', '\n'] ++ Report.jsonStep step) step.document :=
  ⟨List.cons_ne_nil _ _, fun _ => rfl, fun rest => readValue_jsonStep h n rest⟩

/-- The steps of a calculation, with a comma before each of them but the first. -/
theorem readList_jsonSteps {first : Step} {steps : List Step}
    (h : ∀ step ∈ first :: steps, step.result.isFinite = true) (n : Nat) (rest : Text) :
    readList (readValue (n + 2)) ']' ('\n' :: (Text.joined [',', '\n']
      ((first :: steps).map Report.jsonStep) ++ (indentation 2 ++ ']' :: rest))) =
        some ((first :: steps).map Step.document, rest) := by
  obtain ⟨hfirst, hsteps⟩ := List.forall_mem_cons.mp h
  have hitems : List.Forall₂ (IsItem (endOfList? ']') (readAfterComma (readValue (n + 2))))
      ((steps.map Report.jsonStep).map ([',', '\n'] ++ ·)) (steps.map Step.document) := by
    rw [List.map_map, List.forall₂_map_left_iff, List.forall₂_map_right_iff, List.forall₂_same]
    exact fun step hstep => isItem_jsonStep (hsteps step hstep) n
  have hend : endOfList? ']' (indentation 2 ++ ']' :: rest) = some rest := by
    rw [endOfList?_append (isBlank_of_mem_indentation 2) rfl, if_pos rfl]
  rw [List.map_cons, List.map_cons, Text.joined_cons, List.append_assoc]
  exact readList_cons rfl (readValue_jsonStep hfirst n _) (items_of_forall₂ hitems hend)

theorem json_eq (c : Calculation) : Report.json c =
    '\x7b' :: (indentation 2 ++ (Report.jsonString "etapes".toList ++ ':' ::
      (([' '] ++ '[' :: '\n' :: (Text.joined [',', '\n'] (c.steps.map Report.jsonStep) ++
        (indentation 2 ++ [']']))) ++ ',' :: (indentation 2 ++
          (Report.jsonString "resultat".toList ++ ':' :: (([' '] ++ Report.jsonNumber c.result) ++
            (indentation 0 ++ '\x7d' :: ['\n']))))))) := by
  have hopening : "\x7b\n  \"etapes\": [\n".toList = '\x7b' :: (indentation 2 ++
      (Report.jsonString "etapes".toList ++ [':', ' ', '[', '\n'])) := by decide +kernel
  have hcomma : ",\n".toList = [',', '\n'] := by decide +kernel
  have hbetween : "\n  ],\n  \"resultat\": ".toList = indentation 2 ++ ']' :: ',' ::
      (indentation 2 ++ (Report.jsonString "resultat".toList ++ [':', ' '])) := by decide +kernel
  have hclosing : "\n\x7d\n".toList = indentation 0 ++ ['\x7d', '\n'] := by decide +kernel
  unfold Report.json
  simp only [hopening, hcomma, hbetween, hclosing]
  simp only [List.append_assoc, List.cons_append, List.nil_append]

/-- The document of a calculation says what its steps and its result are. -/
theorem read_json {c : Calculation} (h : ∀ step ∈ c.steps, step.result.isFinite = true) :
    Json.read (Report.json c) = some c.document := by
  -- the values are nested four levels deep, and the reader allows one level for each character
  have hlength : ∃ n, (Report.json c).length = n + 4 := by
    rw [json_eq]
    exact ⟨_, rfl⟩
  obtain ⟨n, hn⟩ := hlength
  have hresult : c.result.isFinite = true := h c.last (by simp [Calculation.steps])
  have hne : c.steps ≠ [] := by simp [Calculation.steps]
  obtain ⟨first, steps, hsteps⟩ := List.exists_cons_of_ne_nil hne
  have hread : readValue (n + 4) (Report.json c) = some (c.document, ['\n']) := by
    rw [json_eq]
    apply readValue_two_members (isBlank_of_mem_indentation 2) (isBlank_of_mem_indentation 0)
    · intro rest
      rw [hsteps] at h ⊢
      rw [List.append_assoc, readValue_append isBlank_of_mem_space]
      simp only [List.append_assoc, List.cons_append, List.nil_append]
      exact readValue_array (readList_jsonSteps h n _)
    · rw [List.append_assoc, readValue_append isBlank_of_mem_space]
      exact readValue_number hresult (by simp [indentation, isNumberCharacter])
  rw [Json.read, hn, hread]
  rfl

end Json

end Stepwise
