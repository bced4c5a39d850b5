namespace BlockStudio

inductive BlockKind where
  | number
  | text
  | truth
  | falsity
  | color
  | branch
  | choose
  | whileLoop
  | forEach
  | forRange
  | globalDef
  | variableGet
  | variableSet
  | argument
  | procedureDef
  | procedureWithResult
  | procedureCall
  | componentEvent
  | componentGetter
  | componentSetter
  | componentMethod
  | componentObject
  | componentTypeGetter
  | componentTypeSetter
  | componentTypeMethod
  | primitive
deriving Repr, DecidableEq, Inhabited

namespace BlockKind

def name : BlockKind → String
  | number => "number"
  | text => "text"
  | truth => "true"
  | falsity => "false"
  | color => "color"
  | branch => "if"
  | choose => "choose"
  | whileLoop => "while"
  | forEach => "for-each"
  | forRange => "for-range"
  | globalDef => "global-def"
  | variableGet => "variable-get"
  | variableSet => "variable-set"
  | argument => "argument"
  | procedureDef => "procedure-def"
  | procedureWithResult => "procedure-with-result"
  | procedureCall => "procedure-call"
  | componentEvent => "component-event"
  | componentGetter => "component-getter"
  | componentSetter => "component-setter"
  | componentMethod => "component-method"
  | componentObject => "component-object"
  | componentTypeGetter => "component-type-getter"
  | componentTypeSetter => "component-type-setter"
  | componentTypeMethod => "component-type-method"
  | primitive => "primitive"

def all : List BlockKind :=
  [number, text, truth, falsity, color, branch, choose, whileLoop, forEach, forRange, globalDef,
   variableGet, variableSet, argument, procedureDef, procedureWithResult, procedureCall, componentEvent,
   componentGetter, componentSetter, componentMethod, componentObject, componentTypeGetter,
   componentTypeSetter, componentTypeMethod, primitive]

def ofName? (s : String) : Option BlockKind := all.find? fun k => k.name = s

def isDeclaration : BlockKind → Bool
  | globalDef | procedureDef | procedureWithResult | componentEvent => true
  | _ => false

def isMember : BlockKind → Bool
  | componentEvent | componentGetter | componentSetter | componentMethod => true
  | _ => false

def isTypeMember : BlockKind → Bool
  | componentTypeGetter | componentTypeSetter | componentTypeMethod => true
  | _ => false

end BlockKind

end BlockStudio
