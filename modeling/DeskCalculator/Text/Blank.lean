import DeskCalculator.Text.RangeTable

/-!
White space: the space separators and the characters whose direction class is white space, a segment
separator or a block separator.
-/
set_option autoImplicit false

namespace DeskCalculator.Text

def blankTable : RangeTable :=
  [ (0x9, 0xd), (0x1c, 0x20), (0x85, 0x85), (0xa0, 0xa0), (0x1680, 0x1680),
    (0x2000, 0x200a), (0x2028, 0x2029), (0x202f, 0x202f), (0x205f, 0x205f), (0x3000, 0x3000)]

def isBlank (c : Char) : Bool := blankTable.covers c.toNat

end DeskCalculator.Text
