import Mathlib.Data.List.Forall2
import Stepwise.Text

namespace Stepwise

/-- What reads a value takes it from the front of a text and leaves the rest. -/
abbrev Reader (α : Type) := Text → Option (α × Text)

namespace Reader

variable {α : Type} {stop? : Text → Option Text} {item : Reader α}

/-- Items, until `stop?` finds the end of them and tells what is left. An item without a single
character is none. -/
def items (stop? : Text → Option Text) (item : Reader α) (t : Text) : Option (List α × Text) :=
  match stop? t with
  | some rest => some ([], rest)
  | none =>
      match item t with
      | none => none
      | some (x, rest) =>
          if rest.length < t.length then
            (items stop? item rest).map fun (xs, rest) => (x :: xs, rest)
          else none
termination_by t.length

/-- The text is an item wherever it stands, and not the end of the items. -/
structure IsItem (stop? : Text → Option Text) (item : Reader α) (text : Text) (x : α) : Prop where
  ne_nil : text ≠ []
  goes_on : ∀ rest, stop? (text ++ rest) = none
  reads : ∀ rest, item (text ++ rest) = some (x, rest)

theorem items_stop {t rest : Text} (h : stop? t = some rest) :
    items stop? item t = some ([], rest) := by
  rw [items, h]

theorem items_cons {t rest : Text} {x : α} (hgoes : stop? t = none)
    (hitem : item t = some (x, rest)) (hlength : rest.length < t.length) :
    items stop? item t = (items stop? item rest).map fun (xs, rest) => (x :: xs, rest) := by
  rw [items, hgoes, hitem]
  exact if_pos hlength

theorem items_of_forall₂ {texts : List Text} {xs : List α}
    (h : List.Forall₂ (IsItem stop? item) texts xs) {t rest : Text} (hend : stop? t = some rest) :
    items stop? item (texts.flatten ++ t) = some (xs, rest) := by
  induction h with
  | nil => exact items_stop hend
  | cons hx _ ih =>
    have hpos := List.length_pos_iff.mpr hx.ne_nil
    rw [List.flatten_cons, List.append_assoc, items_cons (hx.goes_on _) (hx.reads _), ih]
    · rfl
    · simp only [List.length_append]
      omega

end Reader

end Stepwise
