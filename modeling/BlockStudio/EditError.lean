import BlockStudio.Text.Split

namespace BlockStudio

abbrev BlockId := Nat

inductive EditError where
  | unknownBlock (id : BlockId)
  | unknownGenus (name : String)
  | unknownSocket (block : BlockId) (socket : String)
  | socketOccupied (block : BlockId) (socket : String)
  | alreadyConnected (id : BlockId)
  | cycle (parent child : BlockId)
  | unknownComponent (name : String)
  | duplicateComponent (name : String)
  | unknownMember (genus member : String)
  | invalidConnector (text : String)
deriving Repr, DecidableEq

def EditError.message : EditError → String
  | unknownBlock id => "Unknown block: " ++ Text.natText id
  | unknownGenus name => "Unknown genus: " ++ name
  | unknownSocket block socket =>
    "Block " ++ Text.natText block ++ " has no socket named '" ++ socket ++ "'"
  | socketOccupied block socket =>
    "Socket '" ++ socket ++ "' of block " ++ Text.natText block ++ " is already occupied"
  | alreadyConnected id => "Block " ++ Text.natText id ++ " is already connected"
  | cycle parent child =>
    "Connecting block " ++ Text.natText child ++ " under block " ++ Text.natText parent ++
      " would create a cycle"
  | unknownComponent name => "Unknown component: " ++ name
  | duplicateComponent name => "A component named '" ++ name ++ "' already exists"
  | unknownMember genus member => "Component type '" ++ genus ++ "' has no member '" ++ member ++ "'"
  | invalidConnector text => "Invalid connector kind: " ++ text

end BlockStudio
