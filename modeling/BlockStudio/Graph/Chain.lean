import BlockStudio.Graph.Basic

namespace BlockStudio.BlockGraph

def roots (g : BlockGraph) : List BlockId :=
  (g.list.filter fun b => b.parent.isNone && b.before.isNone).map (·.id)

def stackFrom (g : BlockGraph) : Nat → List BlockId → BlockId → List BlockId
  | 0, _, _ => []
  | n + 1, seen, id =>
    if id ∈ seen then []
    else
      id :: match (g.get? id).bind (·.after) with
        | some next => stackFrom g n (id :: seen) next
        | none => []

/-- A stack that loops back on itself ends where it does. -/
def stack (g : BlockGraph) (first : BlockId) : List BlockId := g.stackFrom (g.size + 1) [] first

def climb (g : BlockGraph) : Nat → BlockId → BlockId
  | 0, id => id
  | n + 1, id =>
    match (g.get? id).bind (·.up) with
    | some above => climb g n above
    | none => id

def topOfClump (g : BlockGraph) (id : BlockId) : BlockId := g.climb g.size id

def enclosesWithin (g : BlockGraph) (candidate : BlockId) : Nat → BlockId → Bool
  | 0, _ => false
  | n + 1, id =>
    if id = candidate then true
    else
      match (g.get? id).bind (·.up) with
      | some above => enclosesWithin g candidate n above
      | none => false

def encloses (g : BlockGraph) (candidate id : BlockId) : Bool := g.enclosesWithin candidate (g.size + 1) id

def collectNested (g : BlockGraph) : Nat → List BlockId → BlockId → List BlockId
  | 0, out, _ => out
  | n + 1, out, id =>
    if id ∈ out then out
    else
      match g.get? id with
      | some b => (b.children.flatMap g.stack).foldl (collectNested g n) (out ++ [id])
      | none => out ++ [id]

def nested (g : BlockGraph) (id : BlockId) : List BlockId := g.collectNested (g.size + 1) [] id

end BlockStudio.BlockGraph
