import BlockStudio.Graph.Adapt
import BlockStudio.Graph.Chain

/-!
Removing a block: with it go the blocks nested in its sockets and the stubs derived from removed blocks,
and the block below takes its place.
-/

namespace BlockStudio.BlockGraph

def heal (g : BlockGraph) (id : BlockId) (b : Block) : BlockGraph :=
  let onBelow (f : Block → Block) (g : BlockGraph) : BlockGraph :=
    match b.after with
    | some below => g.modify below f
    | none => g
  let g := onBelow (fun c => { c with before := none }) g
  match b.parent, b.before with
  | some parent, _ =>
    let g := g.modify parent fun p => { p with sockets := Socket.replace id b.after p.sockets }
    onBelow (fun c => { c with parent := some parent }) g
  | none, some above =>
    let g := g.modify above fun a => { a with after := b.after }
    onBelow (fun c => { c with before := some above }) g
  | none, none => g

def eraseAll (g : BlockGraph) (ids : List BlockId) : BlockGraph := ids.foldl erase g

def orphansOf (g : BlockGraph) (ids : List BlockId) : List BlockId :=
  (g.list.filter fun b => b.declaringParent.any (· ∈ ids)).map (·.id)

def adaptIfPresent (g : BlockGraph) (id : Option BlockId) : BlockGraph :=
  match id with
  | some id => if g.contains id then g.adapt id else g
  | none => g

def removeFrom : Nat → BlockId → BlockGraph → BlockGraph × List BlockId
  | 0, _, g => (g, [])
  | n + 1, id, g =>
    match g.get? id with
    | none => (g, [])
    | some b =>
      let g := g.heal id b
      let doomed := g.nested id
      let g := g.eraseAll doomed
      let (g, more) := (g.orphansOf doomed).foldl
        (fun acc stub => let r := removeFrom n stub acc.1; (r.1, acc.2 ++ r.2)) (g, [])
      (g.adaptIfPresent b.parent, doomed ++ more)

def removeBlock (id : BlockId) : Edit BlockGraph (List BlockId) := do
  let _ ← Edit.lift ((← Edit.get).require id)
  Edit.change fun g => removeFrom g.size id g

end BlockStudio.BlockGraph
