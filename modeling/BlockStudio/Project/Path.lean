import BlockStudio.Text.Split

namespace BlockStudio.Path

def segments (path : String) : List String := (Text.pieces '/' path.toList).map String.ofList

def isIdle (segment : String) : Bool := segment = "" || segment = "."

def parts (path : String) : List String := (segments path).filter fun s => !isIdle s

def parent (path : String) : String :=
  "/".intercalate ((((segments path).reverse.dropWhile isIdle).drop 1).dropWhile isIdle).reverse

def fileName? (path : String) : Option String := (parts path).getLast?.filter (· ≠ "..")

def fileStem? (path : String) : Option String :=
  (fileName? path).map fun name =>
    match Text.cutLast '.' name with
    | some ("", _) => name
    | some (stem, _) => stem
    | none => name

end BlockStudio.Path
