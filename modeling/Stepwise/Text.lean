namespace Stepwise

abbrev Text := List Char

/-- The texts one after the other, with a separator between neighbours. -/
def Text.joined (separator : Text) (parts : List Text) : Text :=
  separator.intercalate parts

end Stepwise
