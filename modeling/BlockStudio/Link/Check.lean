import BlockStudio.Link.Rules

namespace BlockStudio.LinkRules

def canLink (r : LinkRules) (t : ComponentTree) (parent child : Block) (socket : String) : Bool :=
  match r.socketTypes t parent socket, r.plugTypes t child with
  | some accepts, some offers => accepts.toList.any (· ∈ offers)
  | _, _ => true

def refusal (accepts : SortedSet String) : String :=
  match accepts.toList.filter (· ≠ valueType) with
  | [] => "This socket cannot accept any block"
  | ["argument"] => "This socket requires a name block"
  | [one] => "This socket requires a " ++ one ++ " block"
  | many => "This socket requires one of these block types: " ++ ", ".intercalate many

def blocksLiteral (r : LinkRules) (child : Block) (target : String) : Bool :=
  decide (r.kindOf? child.genus = some .text) && decide (target = "number") && !Text.isNumber child.label

/-- The first registered conversion among the pairs that is not blocked, and whether one was blocked
before it. -/
def searchCoercion (r : LinkRules) (child : Block) : List (String × String) → Bool → Option (String × String) × Bool
  | [], blocked => (none, blocked)
  | (source, target) :: rest, blocked =>
    if r.coercions.allows source target then
      if r.blocksLiteral child target then searchCoercion r child rest true else (some (source, target), blocked)
    else searchCoercion r child rest blocked

def typePairs (offers accepts : SortedSet String) : List (String × String) :=
  offers.toList.flatMap fun source => accepts.toList.map fun target => (source, target)

def canCoerce (r : LinkRules) (t : ComponentTree) (parent child : Block) (socket : String) : LinkVerdict :=
  if r.canLink t parent child socket then .allowed none
  else
    match r.socketTypes t parent socket, r.plugTypes t child with
    | some accepts, some offers =>
      match r.searchCoercion child (typePairs offers accepts) false with
      | (some via, _) => .allowed (some via)
      | (none, true) => .refused ("\"" ++ child.label ++ "\" is not a number")
      | (none, false) => .refused (refusal accepts)
    | _, _ => .allowed none

def singleType (types : SortedSet String) : String :=
  match types.toList.filter (· ≠ valueType) with
  | [only] => only
  | _ => "any"

def argumentType (r : LinkRules) (t : ComponentTree) (b : Block) (s : Socket) : String :=
  match r.socketTypes t b s.label with
  | some types => singleType types
  | none => "any"

def hasArgumentRule (r : LinkRules) (t : ComponentTree) (b : Block) : Bool :=
  match r.kindOf? b.genus with
  | none => false
  | some kind =>
    if kind = .componentMethod || kind = .componentTypeMethod then
      ((r.memberOf? t b).bind fun m => r.methodParams.lookup m).isSome
    else ((r.genera.lookup b.genus).map fun rules => rules.sockets.size != 0).getD false

def argumentTypes (r : LinkRules) (t : ComponentTree) (b : Block) : Option (List String) :=
  if r.hasArgumentRule t b then some (b.sockets.map (r.argumentType t b)) else none

end BlockStudio.LinkRules
