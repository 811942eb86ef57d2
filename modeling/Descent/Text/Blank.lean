import Descent.Text.Ranges

/-! Unicode 17 property White_Space, and texts without their blanks. -/

namespace Descent

/-- The characters with the property White_Space. -/
def Ranges.blank : Ranges where
  table :=
    [(0x9, 0xD), (0x20, 0x20), (0x85, 0x85), (0xA0, 0xA0), (0x1680, 0x1680), (0x2000, 0x200A),
     (0x2028, 0x2029), (0x202F, 0x202F), (0x205F, 0x205F), (0x3000, 0x3000)]

def isBlank (c : Char) : Bool := Ranges.blank.contains c.toNat

/-- A text without the blanks it starts with. -/
def Text.trimStart (s : List Char) : List Char := s.dropWhile isBlank

end Descent
