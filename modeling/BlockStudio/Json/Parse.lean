import BlockStudio.Json.Value
import BlockStudio.Text.Numeral

namespace BlockStudio.Json

def isSpace (c : Char) : Bool := c = ' ' || c = '\n' || c = '\t' || c = '\r'

def skipSpace (cs : List Char) : List Char := cs.dropWhile isSpace

def hexUnit? (a b c d : Char) : Option Nat := do
  let a ← Text.hexValue? a
  let b ← Text.hexValue? b
  let c ← Text.hexValue? c
  let d ← Text.hexValue? d
  return ((a * 16 + b) * 16 + c) * 16 + d

def simpleEscape? : Char → Option Char
  | '"' => some '"'
  | '\\' => some '\\'
  | '/' => some '/'
  | 'b' => some (Char.ofNat 0x08)
  | 'f' => some (Char.ofNat 0x0C)
  | 'n' => some '\n'
  | 'r' => some '\r'
  | 't' => some '\t'
  | _ => none

/-- A character of a string literal, or half of one written as an escape. -/
inductive Piece where
  | whole (c : Char)
  | upper (bits : Nat)
  | lower (bits : Nat)
deriving Repr, DecidableEq

def Piece.ofUnit (n : Nat) : Piece :=
  if 0xD800 ≤ n ∧ n < 0xDC00 then .upper (n - 0xD800)
  else if 0xDC00 ≤ n ∧ n < 0xE000 then .lower (n - 0xDC00)
  else .whole (Char.ofNat n)

def Piece.join : List Piece → Option (List Char)
  | [] => some []
  | .whole c :: rest => (join rest).map (c :: ·)
  | .upper h :: .lower l :: rest => (join rest).map (Char.ofNat (0x10000 + h * 0x400 + l) :: ·)
  | _ :: _ => none

def pieces : List Char → Option (List Piece × List Char)
  | [] => none
  | '"' :: rest => some ([], rest)
  | '\\' :: 'u' :: a :: b :: c :: d :: rest => do
    let n ← hexUnit? a b c d
    let (ps, rest) ← pieces rest
    return (.ofUnit n :: ps, rest)
  | '\\' :: e :: rest => do
    let c ← simpleEscape? e
    let (ps, rest) ← pieces rest
    return (.whole c :: ps, rest)
  | c :: rest =>
    if c = '\\' ∨ c.toNat < 0x20 then none
    else do
      let (ps, rest) ← pieces rest
      return (.whole c :: ps, rest)

def takeFraction? : List Char → Option (Bool × List Char)
  | '.' :: c :: cs => if Text.isAsciiDigit c then some (true, cs.dropWhile Text.isAsciiDigit) else none
  | '.' :: [] => none
  | cs => some (false, cs)

def takeExponentDigits? (cs : List Char) : Option (Bool × List Char) :=
  match Text.dropSign cs with
  | c :: cs => if Text.isAsciiDigit c then some (true, cs.dropWhile Text.isAsciiDigit) else none
  | [] => none

def takeExponent? : List Char → Option (Bool × List Char)
  | 'e' :: cs => takeExponentDigits? cs
  | 'E' :: cs => takeExponentDigits? cs
  | cs => some (false, cs)

def takeWhole? : List Char → Option (List Char × List Char)
  | [] => none
  | c :: cs =>
    if c = '0' then
      match cs with
      | d :: _ => if Text.isAsciiDigit d then none else some (['0'], cs)
      | [] => some (['0'], cs)
    else if Text.isAsciiDigit c then
      some (c :: cs.takeWhile Text.isAsciiDigit, cs.dropWhile Text.isAsciiDigit)
    else none

def number (negative : Bool) (cs : List Char) : Option (Json × List Char) := do
  let (digits, cs) ← takeWhole? cs
  let (fraction, cs) ← takeFraction? cs
  let (exponent, cs) ← takeExponent? cs
  if negative || fraction || exponent then
    return (otherNumber, cs)
  return (count (digits.foldl (fun n c => 10 * n + Text.digitValue c) 0), cs)

mutual

def value : Nat → List Char → Option (Json × List Char)
  | 0, _ => none
  | n + 1, cs =>
    match skipSpace cs with
    | 'n' :: 'u' :: 'l' :: 'l' :: rest => some (null, rest)
    | 't' :: 'r' :: 'u' :: 'e' :: rest => some (bool true, rest)
    | 'f' :: 'a' :: 'l' :: 's' :: 'e' :: rest => some (bool false, rest)
    | '"' :: rest =>
      (pieces rest).map fun p =>
        match Piece.join p.1 with
        | some s => (text (String.ofList s), p.2)
        | none => (unreadable, p.2)
    | '[' :: rest =>
      match skipSpace rest with
      | ']' :: rest => some (list [], rest)
      | rest => (items n rest).map fun p => (list p.1, p.2)
    | '\x7b' :: rest =>
      match skipSpace rest with
      | '\x7d' :: rest => some (object [], rest)
      | rest =>
        (members n rest).map fun p =>
          match p.1 with
          | some ms => (object ms, p.2)
          | none => (unreadable, p.2)
    | '-' :: rest => number true rest
    | rest => number false rest

def items : Nat → List Char → Option (List Json × List Char)
  | 0, _ => none
  | n + 1, cs => do
    let (j, rest) ← value n cs
    match skipSpace rest with
    | ',' :: rest =>
      let (js, rest) ← items n rest
      return (j :: js, rest)
    | ']' :: rest => return ([j], rest)
    | _ => none

/-- One member or more, up to the closing brace; no list if a name cannot be read. -/
def members : Nat → List Char → Option (Option (List (String × Json)) × List Char)
  | 0, _ => none
  | n + 1, cs =>
    match skipSpace cs with
    | '"' :: rest => do
      let (ps, rest) ← pieces rest
      match skipSpace rest with
      | ':' :: rest =>
        let (j, rest) ← value n rest
        let member := (Piece.join ps).map fun name => (String.ofList name, j)
        match skipSpace rest with
        | ',' :: rest =>
          let (ms, rest) ← members n rest
          return (member.bind fun m => ms.map (m :: ·), rest)
        | '\x7d' :: rest => return (member.map ([·]), rest)
        | _ => none
      | _ => none
    | _ => none

end

def parse? (s : String) : Option Json :=
  match value (s.toList.length + 1) s.toList with
  | some (j, rest) => if (skipSpace rest).isEmpty then some j else none
  | none => none

end BlockStudio.Json
