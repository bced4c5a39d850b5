import BlockStudio.Language.Genus
import BlockStudio.Language.ComponentType

namespace BlockStudio

structure Language where
  types : List String := []
  genera : NameMap Genus := .empty
  components : NameMap ComponentType := .empty
deriving Repr, DecidableEq, Inhabited

namespace Language

def addGenus (lang : Language) (g : Genus) : Language := { lang with genera := lang.genera.put g.name g }

def addComponentType (lang : Language) (t : ComponentType) : Language :=
  { lang with components := lang.components.put t.name t }

def removeGenus (lang : Language) (name : String) : Language := { lang with genera := lang.genera.erase name }

def genus? (lang : Language) (name : String) : Option Genus := lang.genera.get? name

def requireGenus (lang : Language) (name : String) : Except EditError Genus :=
  match lang.genus? name with
  | some g => .ok g
  | none => .error (.unknownGenus name)

def componentType? (lang : Language) (name : String) : Option ComponentType := lang.components.get? name

end Language

namespace GenusName

def procedure : String := "define-void"
def procedureWithResult : String := "define"
def callerCommand : String := "caller-command"
def caller : String := "caller"
def argument : String := "argument"
def componentEvent : String := "component-event"
def componentGetter : String := "component-getter"
def componentSetter : String := "component-setter"
def componentMethod : String := "component-method"
def componentMethodValue : String := "component-method-value"
def component : String := "component"
def componentTypeGetter : String := "component-type-getter"
def componentTypeSetter : String := "component-type-setter"
def componentTypeMethod : String := "component-type-method"

end GenusName

end BlockStudio
