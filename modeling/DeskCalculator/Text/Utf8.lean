/-!
Bytes as text. The bytes are read as UTF-8; each longest part that begins a character and cannot be
continued to one becomes a single replacement character, and so does a byte that begins none.
-/
set_option autoImplicit false

namespace DeskCalculator.Text

def replacement : Char := '\ufffd'

/-- A character of which some bytes are still to come: the bits read so far, how many bytes are
missing, and the range that the next of them lies in. -/
structure Begun where
  bits : Nat
  missing : Nat
  lowest : Nat := 0x80
  highest : Nat := 0xbf
  deriving DecidableEq

def beginCharacter (b : Nat) : List Char × Option Begun :=
  if b < 0x80 then ([Char.ofNat b], none)
  else if b < 0xc2 then ([replacement], none)
  else if b < 0xe0 then ([], some { bits := b - 0xc0, missing := 1 })
  else if b = 0xe0 then ([], some { bits := 0, missing := 2, lowest := 0xa0 })
  else if b = 0xed then ([], some { bits := 0xd, missing := 2, highest := 0x9f })
  else if b < 0xf0 then ([], some { bits := b - 0xe0, missing := 2 })
  else if b = 0xf0 then ([], some { bits := 0, missing := 3, lowest := 0x90 })
  else if b < 0xf4 then ([], some { bits := b - 0xf0, missing := 3 })
  else if b = 0xf4 then ([], some { bits := 4, missing := 3, highest := 0x8f })
  else ([replacement], none)

/-- Reads one byte. A byte that does not continue the character begun before it is read anew. -/
def decodeByte : Option Begun → Nat → List Char × Option Begun
  | none, b => beginCharacter b
  | some p, b =>
    if p.lowest ≤ b ∧ b ≤ p.highest then
      let bits := p.bits * 64 + (b - 0x80)
      if p.missing ≤ 1 then ([Char.ofNat bits], none)
      else ([], some { bits, missing := p.missing - 1 })
    else
      let (cs, p') := beginCharacter b
      (replacement :: cs, p')

def decodeFrom : Option Begun → List UInt8 → List Char
  | none, [] => []
  | some _, [] => [replacement]
  | p, b :: bs =>
    let (cs, p') := decodeByte p b.toNat
    cs ++ decodeFrom p' bs

def decodeUtf8 (bytes : List UInt8) : List Char := decodeFrom none bytes

end DeskCalculator.Text
