import BlockStudio.Yail.Form
import BlockStudio.Text.Numeral

namespace BlockStudio.Yail

def null : Form := .word "*the-null-value*"

def truth : Form := .word "#t"

def falsity : Form := .word "#f"

def hexDigits? (cs : List Char) : Option (List Char) :=
  (Text.dropLead? ['&', 'H'] cs).filter fun digits => !digits.isEmpty && digits.all Text.isHexDigit

def numberLiteral? (label : String) : Option String :=
  let trimmed := Text.trim label
  match hexDigits? trimmed.toList with
  | some digits => some ("#x" ++ String.ofList digits)
  | none => if Text.isNumber trimmed then some trimmed else none

def upperHex (c : Char) : Char :=
  if decide ('a' ≤ c) && decide (c ≤ 'f') then Char.ofNat (c.toNat - 0x20) else c

def colorDigits (label : String) : List Char :=
  let cs := Text.trimChars label.toList
  let drop (mark : List Char) (cs : List Char) := Text.dropLeads mark cs.length cs
  drop ['0', 'x'] (drop ['&', 'H'] (drop ['#'] cs))

def colorLiteral? (label : String) : Option String :=
  let digits := colorDigits label
  if digits.all Text.isHexDigit then
    if digits.length = 6 then some ("#xFF" ++ String.ofList (digits.map upperHex))
    else if digits.length = 8 then some ("#x" ++ String.ofList (digits.map upperHex))
    else none
  else none

def propertyValue (type value : String) : Form :=
  if type = "number" then
    match numberLiteral? value with
    | some n => .word n
    | none => .str value
  else if type = "boolean" then
    if value = "True" || value = "true" then truth
    else if value = "False" || value = "false" then falsity
    else .str value
  else if type = "component" then
    if value = "" then .str "" else .call "get-component" [.word value]
  else .str value

end BlockStudio.Yail
