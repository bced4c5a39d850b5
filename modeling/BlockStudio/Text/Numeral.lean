import BlockStudio.Text.CharClass

namespace BlockStudio.Text

def dropSign : List Char → List Char
  | '+' :: cs => cs
  | '-' :: cs => cs
  | cs => cs

def dropDigits? : List Char → Option (List Char)
  | c :: cs => if isDecimalDigit c then some (cs.dropWhile isDecimalDigit) else none
  | [] => none

def dropMantissa? (cs : List Char) : Option (List Char) :=
  match dropDigits? cs with
  | some ('.' :: rest) => some (rest.dropWhile isDecimalDigit)
  | some rest => some rest
  | none =>
    match cs with
    | '.' :: rest => dropDigits? rest
    | _ => none

def dropExponent? : List Char → Option (List Char)
  | 'e' :: cs => dropDigits? (dropSign cs)
  | 'E' :: cs => dropDigits? (dropSign cs)
  | cs => some cs

def isNumber (s : String) : Bool :=
  match (dropMantissa? (dropSign (s.toList.dropWhile isBlank))).bind dropExponent? with
  | some rest => rest.all isBlank
  | none => false

def hexValue? (c : Char) : Option Nat :=
  let n := c.toNat
  if 0x30 ≤ n ∧ n ≤ 0x39 then some (n - 0x30)
  else if 0x41 ≤ n ∧ n ≤ 0x46 then some (n - 0x37)
  else if 0x61 ≤ n ∧ n ≤ 0x66 then some (n - 0x57)
  else none

def hexBytes : List Char → List UInt8
  | a :: b :: rest =>
    match hexValue? a, hexValue? b with
    | some a, some b => UInt8.ofNat (16 * a + b) :: hexBytes rest
    | _, _ => []
  | _ => []

def digitValue (c : Char) : Nat := c.toNat - 0x30

def natOfDigits? (cs : List Char) : Option Nat :=
  if !cs.isEmpty && cs.all isAsciiDigit then some (cs.foldl (fun n c => 10 * n + digitValue c) 0) else none

def natBelow? (bound : Nat) (cs : List Char) : Option Nat :=
  (natOfDigits? cs).filter fun n => decide (n < bound)

def count? (s : String) : Option Nat :=
  match s.toList with
  | '+' :: cs => natBelow? UInt64.size cs
  | cs => natBelow? UInt64.size cs

def integer? (s : String) : Option Int :=
  match s.toList with
  | '+' :: cs => (natBelow? (UInt64.size / 2) cs).map Int.ofNat
  | '-' :: cs => (natBelow? (UInt64.size / 2 + 1) cs).map fun n => - Int.ofNat n
  | cs => (natBelow? (UInt64.size / 2) cs).map Int.ofNat

end BlockStudio.Text
