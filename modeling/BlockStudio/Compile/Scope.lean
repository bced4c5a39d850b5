namespace BlockStudio

abbrev Scope := List (List String)

namespace Scope

def push (s : Scope) (names : List String) : Scope := names :: s

def binds (s : Scope) (name : String) : Bool := s.any fun names => names.contains name

def depth (s : Scope) : Nat := s.length

end Scope

end BlockStudio
