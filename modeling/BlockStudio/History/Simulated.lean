import BlockStudio.History.Store

namespace BlockStudio

structure SimDocument where
  text : String
  failSnapshot : Bool := false
  failRestore : Bool := false
deriving Repr, DecidableEq

def SimDocument.store : Store SimDocument where
  snapshot d := if d.failSnapshot then .error .snapshot else .ok d.text
  restore s d := if d.failRestore then .error .snapshot else .ok { d with text := s }

namespace SaveSink

def recording : SaveSink (List (String × String)) where
  write path contents saved := (.ok (), saved ++ [(path, contents)])

def refusing (message : String) : SaveSink Unit where
  write _ _ _ := (.error message, ())

end SaveSink

end BlockStudio
