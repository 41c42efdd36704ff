import Stepwise.Unicode.CodeRange

namespace Stepwise.Unicode

/-- The Unicode property *White_Space*. -/
def whiteSpace : List CodeRange := [
  ⟨0x9, 0xD⟩, ⟨0x20, 0x20⟩, ⟨0x85, 0x85⟩, ⟨0xA0, 0xA0⟩, ⟨0x1680, 0x1680⟩,
  ⟨0x2000, 0x200A⟩, ⟨0x2028, 0x2029⟩, ⟨0x202F, 0x202F⟩, ⟨0x205F, 0x205F⟩, ⟨0x3000, 0x3000⟩]

/-- Blanks separate tokens and are otherwise ignored. The zero-width space and the byte order
mark are no blanks. -/
def isWhiteSpace (c : Char) : Bool :=
  covers whiteSpace c.toNat

end Stepwise.Unicode
