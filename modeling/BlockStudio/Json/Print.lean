import BlockStudio.Json.Value

namespace BlockStudio.Json

def hexDigit (n : Nat) : Char := if n < 10 then Char.ofNat (0x30 + n) else Char.ofNat (0x57 + n)

def escapeChar (c : Char) : List Char :=
  if c = '"' then ['\\', '"']
  else if c = '\\' then ['\\', '\\']
  else if c = '\n' then ['\\', 'n']
  else if c = '\t' then ['\\', 't']
  else if c = '\r' then ['\\', 'r']
  else if c.toNat = 0x08 then ['\\', 'b']
  else if c.toNat = 0x0C then ['\\', 'f']
  else if c.toNat < 0x20 then ['\\', 'u', '0', '0', hexDigit (c.toNat / 16), hexDigit (c.toNat % 16)]
  else [c]

def printText (s : String) : List Char := '"' :: (s.toList.flatMap escapeChar ++ ['"'])

mutual

/-- What was never read is written as null. -/
def printChars : Json → List Char
  | null => ['n', 'u', 'l', 'l']
  | bool true => ['t', 'r', 'u', 'e']
  | bool false => ['f', 'a', 'l', 's', 'e']
  | count n => Nat.toDigits 10 n
  | otherNumber => ['n', 'u', 'l', 'l']
  | text s => printText s
  | list items => '[' :: printItems items
  | object members => '\x7b' :: printMembers members
  | unreadable => ['n', 'u', 'l', 'l']

def printItems : List Json → List Char
  | [] => [']']
  | j :: rest => printChars j ++ printMoreItems rest

def printMoreItems : List Json → List Char
  | [] => [']']
  | j :: rest => ',' :: (printChars j ++ printMoreItems rest)

def printMembers : List (String × Json) → List Char
  | [] => ['\x7d']
  | (name, j) :: rest => printText name ++ ':' :: (printChars j ++ printMoreMembers rest)

def printMoreMembers : List (String × Json) → List Char
  | [] => ['\x7d']
  | (name, j) :: rest => ',' :: (printText name ++ ':' :: (printChars j ++ printMoreMembers rest))

end

def print (j : Json) : String := String.ofList (printChars j)

end BlockStudio.Json
