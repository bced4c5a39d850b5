import BlockStudio.Text.Split

namespace BlockStudio.Payload

def replaceAll (old new cs : List Char) : List Char := Text.replaceChars old new cs.length cs

def escapeChars (cs : List Char) : List Char :=
  replaceAll ['>', '>'] ['&', '2'] (replaceAll ['<', '<'] ['&', '1'] (replaceAll ['&'] ['&', '0'] cs))

def unescapeChars : List Char → List Char
  | [] => []
  | '&' :: '0' :: rest => '&' :: unescapeChars rest
  | '&' :: '1' :: rest => '<' :: '<' :: unescapeChars rest
  | '&' :: '2' :: rest => '>' :: '>' :: unescapeChars rest
  | c :: rest => c :: unescapeChars rest

def escape (s : String) : String := String.ofList (escapeChars s.toList)

def unescape (s : String) : String := String.ofList (unescapeChars s.toList)

end BlockStudio.Payload
