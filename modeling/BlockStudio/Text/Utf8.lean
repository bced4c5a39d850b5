namespace BlockStudio.Utf8

def encode (cs : List Char) : List UInt8 := cs.flatMap String.utf8EncodeChar

def bytes (s : String) : List UInt8 := encode s.toList

def replacement : Char := Char.ofNat 0xFFFD

/-- A character of which some bytes were read: how many are missing, the bits so far, and the range
of the next byte. -/
structure Partial where
  missing : Nat
  bits : Nat
  low : UInt8
  high : UInt8
deriving Repr, DecidableEq

def start (b : UInt8) : List Char × Option Partial :=
  if b < 0x80 then ([Char.ofNat b.toNat], none)
  else if b < 0xC2 then ([replacement], none)
  else if b < 0xE0 then ([], some ⟨1, b.toNat - 0xC0, 0x80, 0xBF⟩)
  else if b = 0xE0 then ([], some ⟨2, 0, 0xA0, 0xBF⟩)
  else if b = 0xED then ([], some ⟨2, 0xD, 0x80, 0x9F⟩)
  else if b < 0xF0 then ([], some ⟨2, b.toNat - 0xE0, 0x80, 0xBF⟩)
  else if b = 0xF0 then ([], some ⟨3, 0, 0x90, 0xBF⟩)
  else if b < 0xF4 then ([], some ⟨3, b.toNat - 0xF0, 0x80, 0xBF⟩)
  else if b = 0xF4 then ([], some ⟨3, 4, 0x80, 0x8F⟩)
  else ([replacement], none)

def feed : Option Partial → UInt8 → List Char × Option Partial
  | none, b => start b
  | some p, b =>
    if p.low ≤ b ∧ b ≤ p.high then
      let bits := 64 * p.bits + (b.toNat - 0x80)
      if p.missing ≤ 1 then ([Char.ofNat bits], none) else ([], some ⟨p.missing - 1, bits, 0x80, 0xBF⟩)
    else
      let (out, next) := start b
      (replacement :: out, next)

def decodeFrom : Option Partial → List UInt8 → List Char
  | none, [] => []
  | some _, [] => [replacement]
  | s, b :: rest => (feed s b).1 ++ decodeFrom (feed s b).2 rest

/-- Reads bytes, with one replacement character for each longest ill-formed start of a character. -/
def decode (bs : List UInt8) : List Char := decodeFrom none bs

def text (bs : List UInt8) : String := String.ofList (decode bs)

end BlockStudio.Utf8
