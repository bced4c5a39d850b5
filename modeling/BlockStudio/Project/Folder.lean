import BlockStudio.Project.Path
import BlockStudio.Text.Utf8

namespace BlockStudio

inductive Source where
  | missing
  | unreadable
  | text (s : String)
deriving Repr, DecidableEq

structure Folder where
  files : List (List String × String) := []
  folders : List (List String) := []
  working : List String := ["work"]
deriving Repr, Inhabited

namespace Folder

def isFile (f : Folder) (place : List String) : Bool := f.files.any (·.1 = place)

def isFolder (f : Folder) (place : List String) : Bool :=
  place.isEmpty || place = f.working || f.folders.contains place

def isName (name : String) : Bool :=
  (Utf8.bytes name).length ≤ 255 && name.toList.all fun c => c.toNat != 0

def isPath (path : String) : Bool :=
  (Utf8.bytes path).length < 4096 && path.toList.all fun c => c.toNat != 0

def startOf (f : Folder) (path : String) : List String := if path.toList.head? = some '/' then [] else f.working

def enter (place : List String) (part : String) : List String := if part = ".." then place.dropLast else place ++ [part]

def follow (f : Folder) : List String → List String → Option (List String)
  | place, [] => some place
  | place, part :: rest => if f.isFolder (enter place part) then follow f (enter place part) rest else none

def make (f : Folder) : List String → List String → Bool × Folder
  | _, [] => (true, f)
  | place, part :: rest =>
    let next := enter place part
    if f.isFolder next then make f next rest
    else if f.isFile next || !isName part then (false, f)
    else make { f with folders := next :: f.folders } next rest
termination_by _ ps => ps.length

def namesFile (path : String) : Bool :=
  ((Path.segments path).getLast?.map fun last => !Path.isIdle last && last ≠ "..").getD false

def place? (f : Folder) (path : String) : Option (List String) := do
  let parts := Path.parts path
  let name ← parts.getLast?
  let folder ← f.follow (f.startOf path) parts.dropLast
  return enter folder name

def read (f : Folder) (path : String) : Source :=
  if path = "" || !isPath path then .missing
  else
    match f.follow (f.startOf path) (Path.parts path) with
    | some _ => .unreadable
    | none =>
      match (f.place? path).bind fun place => f.files.lookup place with
      | some s => if namesFile path then .text s else .missing
      | none => .missing

def text? (f : Folder) (path : String) : Option String :=
  match f.read path with
  | .text s => some s
  | _ => none

def write (f : Folder) (path contents : String) : Option Folder := do
  let place ← f.place? path
  if isPath path && namesFile path && !f.isFolder place && place.getLast?.all isName then
    return { f with files := (place, contents) :: f.files.filter (·.1 ≠ place) }
  else none

/-- Folders made on the way stay when the file cannot be written. -/
def save (f : Folder) (path contents : String) : Bool × Folder :=
  if isPath (Path.parent path) then
    match f.make (f.startOf path) (Path.parts path).dropLast with
    | (true, f) =>
      match f.write path contents with
      | some f => (true, f)
      | none => (false, f)
    | (false, f) => (false, f)
  else (false, f)

def ofFiles (files : List (String × String)) : Folder :=
  files.foldl (fun f file => (f.save file.1 file.2).2) {}

end Folder

end BlockStudio
