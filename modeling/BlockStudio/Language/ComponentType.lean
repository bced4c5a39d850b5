namespace BlockStudio

structure PropertyDef where
  name : String
  type : String
  default : String := ""
  description : Option String := none
deriving Repr, DecidableEq, Inhabited

structure ParamDef where
  name : String
  type : String
deriving Repr, DecidableEq, Inhabited

structure EventDef where
  name : String
  params : List ParamDef := []
deriving Repr, DecidableEq, Inhabited

structure MethodDef where
  name : String
  params : List ParamDef := []
  returns : Option String := none
deriving Repr, DecidableEq, Inhabited

structure ComponentType where
  name : String
  properties : List PropertyDef := []
  events : List EventDef := []
  methods : List MethodDef := []
deriving Repr, DecidableEq, Inhabited

namespace ComponentType

def property? (t : ComponentType) (name : String) : Option PropertyDef := t.properties.find? (·.name = name)

def event? (t : ComponentType) (name : String) : Option EventDef := t.events.find? (·.name = name)

def method? (t : ComponentType) (name : String) : Option MethodDef := t.methods.find? (·.name = name)

end ComponentType

end BlockStudio
