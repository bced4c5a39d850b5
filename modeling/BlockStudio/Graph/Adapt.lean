import BlockStudio.Graph.Basic

namespace BlockStudio

def Block.adaptedType (b : Block) : Option String := (b.sockets.filter (·.kind.isPoly)).findSome? (·.resolved)

namespace BlockGraph

def plugTypeOf (g : BlockGraph) (id : BlockId) : Option String := (g.get? id).bind (·.plugType)

def adaptSocket (g : BlockGraph) (s : Socket) : Socket :=
  if s.kind.isPoly then { s with resolved := s.block.bind g.plugTypeOf } else s

def adaptPlug (type : Option String) (p : Plug) : Plug := if p.kind.isPoly then { p with resolved := type } else p

def adaptBlock (g : BlockGraph) (b : Block) : Block :=
  let b := { b with sockets := b.sockets.map g.adaptSocket }
  { b with plug := b.plug.map (adaptPlug b.adaptedType) }

def adaptUp : Nat → BlockId → BlockGraph → BlockGraph
  | 0, _, g => g
  | n + 1, id, g =>
    match g.get? id with
    | none => g
    | some b =>
      let b' := g.adaptBlock b
      let g := g.modify id fun _ => b'
      if b'.plug = b.plug then g
      else
        match b.parent with
        | some parent => adaptUp n parent g
        | none => g

def adapt (g : BlockGraph) (id : BlockId) : BlockGraph := adaptUp g.size id g

end BlockGraph

end BlockStudio
