import Stepwise.Proofs.Results
import Stepwise.Proofs.Session.Actions
import Stepwise.Window

namespace Stepwise

open Binary64

def Button.action : Button → Session.Action
  | symbol _ inserted => .append inserted
  | delete => .delete
  | clear => .clear
  | equals => .equals

/-- What the events between two drawings of the window bring about, whatever their order. -/
def Frame.actions : Frame → List Session.Action
  | .button b => [b.action]
  | .keyboard events =>
      (if events.contains (.key .escape) then [.clear] else []) ++
        (KeyEvent.typed events).map (fun c => .append [c]) ++
        (if events.contains (.key .backspace) then [.delete] else []) ++
        (if events.contains (.key .enter) then [.equals] else [])

namespace Session

theorem foldl_when (s : Session) (condition : Bool) (a : Action) :
    (if condition then [a] else []).foldl perform s = s.when condition (·.perform a) := by
  cases condition <;> rfl

theorem handle_eq_foldl_actions (s : Session) (f : Frame) :
    s.handle f = f.actions.foldl perform s := by
  cases f with
  | button b => cases b <;> rfl
  | keyboard events =>
    simp only [Frame.actions, List.foldl_append, foldl_when, List.foldl_map]
    rfl

theorem foldl_handle (frames : List Frame) :
    frames.foldl handle {} = run (frames.flatMap Frame.actions) := by
  induction frames using List.reverseRecOn with
  | nil => rfl
  | append_singleton frames f ih =>
    rw [List.foldl_append, ih, List.flatMap_append, run, run, List.foldl_append]
    simpa using handle_eq_foldl_actions _ f

/-- What is inserted at once, and also taken away at once. -/
def symbols : List Text :=
  words ++ KeyEvent.accepted.map fun c => [c]

theorem mem_symbols_iff {t : Text} :
    t ∈ symbols ↔ t ∈ words ∨ ∃ c ∈ KeyEvent.accepted, [c] = t := by
  simp [symbols]

/-- The effect of an action on a stack of symbols, whose last one was pushed last. -/
def performStack (stack : List Text) : Action → List Text
  | .append symbol => stack ++ [symbol]
  | .delete => stack.dropLast
  | .clear => []
  | .equals =>
      match calculate stack.flatten with
      | .ok c => (numeral c.result).map fun digit => [digit]
      | .error _ => stack

section Deletion

/-- The characters that a symbol may end with. -/
def finals : Text :=
  'i' :: KeyEvent.accepted

theorem mem_finals_of_getLast? {stack : List Text} (h : ∀ t ∈ stack, t ∈ symbols) {c : Char}
    (hc : stack.flatten.getLast? = some c) : c ∈ finals := by
  have hfinals : ∀ t ∈ symbols, t.getLast?.any finals.contains = true := by decide
  obtain rfl | ⟨init, t, rfl⟩ := List.eq_nil_or_concat stack
  · cases hc
  · obtain ⟨d, hlast, hd⟩ := (Option.any_eq_true _ _).mp (hfinals t (h t (by simp)))
    obtain ⟨t', rfl⟩ := List.getLast?_eq_some_iff.mp hlast
    rw [List.concat_eq_append, List.flatten_append, List.flatten_singleton, ← List.append_assoc,
      List.getLast?_concat] at hc
    rw [← Option.some.inj hc]
    simpa using hd

theorem find?_words_of_mem {w : Text} (hw : w ∈ words) (before : Text) :
    words.find? (·.isSuffixOf (before ++ w)) = some w := by
  -- so at most one word ends a text, and the order of the words does not matter
  have hwords : ∀ v ∈ words, ∀ w ∈ words, v <:+ w ∨ w <:+ v → v = w := by decide
  have hsome : (words.find? (·.isSuffixOf (before ++ w))).isSome = true :=
    List.find?_isSome.mpr ⟨w, hw, by simp⟩
  obtain ⟨v, hv⟩ := Option.isSome_iff_exists.mp hsome
  have hsuffix : v <:+ before ++ w := by simpa using List.find?_some hv
  have := List.suffix_or_suffix_of_suffix hsuffix (List.suffix_append before w)
  rw [hv, hwords v (List.mem_of_find?_eq_some hv) w hw this]

/-- A character never completes a word: no symbol ends with what stands before the last character
of a word, if that character can be typed on its own. -/
theorem find?_words_of_accepted {stack : List Text} (h : ∀ t ∈ stack, t ∈ symbols) {c : Char}
    (hc : c ∈ KeyEvent.accepted) : words.find? (·.isSuffixOf (stack.flatten ++ [c])) = none := by
  have hwords : ∀ w ∈ words, w.getLast?.any KeyEvent.accepted.contains = true →
      w.dropLast.getLast?.any (!finals.contains ·) = true := by
    decide
  rw [List.find?_eq_none]
  intro w hw hsuffix
  have hsuffix : w <:+ stack.flatten ++ [c] := by simpa using hsuffix
  obtain rfl | ⟨w', rfl, hw'⟩ := List.suffix_concat_iff.mp hsuffix
  · revert hw
    decide
  · -- what stands before the last character of the word would be the end of the stack
    have hbefore := hwords _ hw (by simpa using hc)
    rw [List.dropLast_concat] at hbefore
    obtain ⟨x, hlast, hx⟩ := (Option.any_eq_true _ _).mp hbefore
    obtain ⟨w'', rfl⟩ := List.getLast?_eq_some_iff.mp hlast
    obtain ⟨before, hstack⟩ := hw'
    have : x ∈ finals := by
      apply mem_finals_of_getLast? h
      rw [← hstack, ← List.append_assoc, List.getLast?_concat]
    simp [this] at hx

theorem lastSymbolLength_append {stack : List Text} (h : ∀ t ∈ stack, t ∈ symbols) {t : Text}
    (ht : t ∈ symbols) : lastSymbolLength (stack.flatten ++ t) = t.length := by
  obtain hw | ⟨c, hc, rfl⟩ := mem_symbols_iff.mp ht
  · rw [lastSymbolLength, find?_words_of_mem hw]
  · rw [lastSymbolLength, find?_words_of_accepted h hc]
    rfl

end Deletion

section Results

theorem mem_accepted_of_isNumeral {t : Text} (h : Decimal.isNumeral t = true) :
    ∀ c ∈ t, c ∈ KeyEvent.accepted := by
  have hdigits : ∀ n ∈ List.range' 48 10, Char.ofNat n ∈ KeyEvent.accepted := by decide
  obtain ⟨hclass, -⟩ := Decimal.isNumeral_iff.mp h
  intro c hc
  obtain hdigit | rfl := hclass c hc
  · obtain ⟨hfirst, hlast⟩ := Token.toNat_of_isDigit hdigit
    rw [← Char.ofNat_toNat c]
    exact hdigits _ (List.mem_range'_1.mpr ⟨hfirst, Nat.lt_succ_of_le hlast⟩)
  · decide

theorem mem_accepted_of_mem_numeral {r : Float} (hr : IsResult r) :
    ∀ c ∈ numeral r, c ∈ KeyEvent.accepted := by
  obtain ⟨t, ht, hnumeral⟩ := hr.numeral_eq_signed
  rw [hnumeral, Decimal.signed]
  split
  · exact List.forall_mem_cons.mpr ⟨by decide, mem_accepted_of_isNumeral ht⟩
  · exact mem_accepted_of_isNumeral ht

end Results

/-- The entry shows the symbols on a stack one after the other. -/
structure Shows (stack : List Text) (s : Session) : Prop where
  entry : s.entry = stack.flatten
  mem_symbols : ∀ t ∈ stack, t ∈ symbols

namespace Shows

variable {stack : List Text} {s : Session}

theorem append (h : Shows stack s) {t : Text} (ht : t ∈ symbols) :
    Shows (stack ++ [t]) (s.append t) := by
  refine ⟨?_, ?_⟩
  · simp [Session.append, h.entry]
  · simpa [or_imp, forall_and, ht] using h.mem_symbols

theorem delete (h : Shows stack s) : Shows stack.dropLast s.delete := by
  obtain ⟨hentry, hsymbols⟩ := h
  refine ⟨?_, fun t ht => hsymbols t (List.mem_of_mem_dropLast ht)⟩
  obtain rfl | ⟨init, t, rfl⟩ := List.eq_nil_or_concat stack
  · simp [Session.delete, hentry]
  · simp only [List.concat_eq_append, List.forall_mem_append, List.forall_mem_singleton] at hsymbols
    have hlength := lastSymbolLength_append hsymbols.1 hsymbols.2
    have hflatten : (init.concat t).flatten = init.flatten ++ t := by simp
    rw [Session.delete, hentry, hflatten, hlength]
    simp

theorem equals (h : Shows stack s) : Shows (performStack stack .equals) s.equals := by
  rw [performStack, ← h.entry]
  cases hc : calculate s.entry with
  | error r =>
    rw [equals_of_error hc]
    exact ⟨h.entry, h.mem_symbols⟩
  | ok c =>
    rw [equals_of_ok hc]
    refine ⟨?_, ?_⟩
    · simp [record, ← List.flatMap_def]
    · intro t ht
      obtain ⟨digit, hdigit, rfl⟩ := List.mem_map.mp ht
      have := mem_accepted_of_mem_numeral (isResult_of_calculate hc) digit hdigit
      exact mem_symbols_iff.mpr (Or.inr ⟨digit, this, rfl⟩)

theorem perform (h : Shows stack s) {a : Action} (ha : ∀ t, a = .append t → t ∈ symbols) :
    Shows (performStack stack a) (s.perform a) := by
  cases a with
  | append t => exact h.append (ha t rfl)
  | delete => exact h.delete
  | clear => exact ⟨rfl, by simp [performStack]⟩
  | equals => exact h.equals

end Shows

end Session
end Stepwise
