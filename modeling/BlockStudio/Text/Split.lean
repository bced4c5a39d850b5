import BlockStudio.Text.CharClass

namespace BlockStudio.Text

def trimChars (cs : List Char) : List Char :=
  ((cs.dropWhile isBlank).reverse.dropWhile isBlank).reverse

def trim (s : String) : String := String.ofList (trimChars s.toList)

def dropLead? : List Char → List Char → Option (List Char)
  | [], cs => some cs
  | _ :: _, [] => none
  | l :: lead, c :: cs => if l = c then dropLead? lead cs else none

def stripLead? (lead s : String) : Option String :=
  (dropLead? lead.toList s.toList).map String.ofList

def dropLeads (lead : List Char) : Nat → List Char → List Char
  | 0, cs => cs
  | n + 1, cs =>
    match dropLead? lead cs with
    | some rest => dropLeads lead n rest
    | none => cs

def cutChars (sep : List Char) : List Char → Option (List Char × List Char)
  | [] => (dropLead? sep []).map fun rest => ([], rest)
  | c :: cs =>
    match dropLead? sep (c :: cs) with
    | some rest => some ([], rest)
    | none => (cutChars sep cs).map fun p => (c :: p.1, p.2)

def cut (sep s : String) : Option (String × String) :=
  (cutChars sep.toList s.toList).map fun p => (String.ofList p.1, String.ofList p.2)

def cutLastChars (sep : Char) : List Char → Option (List Char × List Char)
  | [] => none
  | c :: cs =>
    match cutLastChars sep cs with
    | some p => some (c :: p.1, p.2)
    | none => if c = sep then some ([], cs) else none

def cutLast (sep : Char) (s : String) : Option (String × String) :=
  (cutLastChars sep s.toList).map fun p => (String.ofList p.1, String.ofList p.2)

def pieces (sep : Char) : List Char → List (List Char)
  | [] => [[]]
  | c :: cs =>
    if c = sep then [] :: pieces sep cs
    else
      match pieces sep cs with
      | part :: parts => (c :: part) :: parts
      | [] => [[c]]

def dropReturn (line : List Char) : List Char := if line.getLast? = some '\r' then line.dropLast else line

def endLines : List (List Char) → List (List Char)
  | [] => []
  | [last] => if last.isEmpty then [] else [last]
  | line :: rest => dropReturn line :: endLines rest

def lines (s : String) : List String := (endLines (pieces '\n' s.toList)).map String.ofList

def replaceChars (old new : List Char) : Nat → List Char → List Char
  | _, [] => []
  | 0, cs => cs
  | n + 1, c :: cs =>
    match dropLead? old (c :: cs) with
    | some rest => new ++ replaceChars old new n rest
    | none => c :: replaceChars old new n cs

def spaced (parts : List String) : String := " ".intercalate parts

def natText (n : Nat) : String := n.repr

end BlockStudio.Text
