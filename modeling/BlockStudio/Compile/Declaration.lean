import BlockStudio.Workspace.Procedure
import BlockStudio.Yail.Template

namespace BlockStudio

inductive Declaration where
  | global (name : String)
  | procedure (name : String) (params : List String)
  | event (component name : String) (params : List String)
deriving Repr, DecidableEq

namespace Declaration

def key : Declaration → String
  | .global name => name
  | .procedure name _ => name
  | .event component name _ => component ++ "." ++ name

def nullForm : Declaration → Form
  | .global name => Yail.defineGlobal name Yail.null
  | .procedure name params => Yail.defineProcedure name params Yail.null
  | .event component name params => Yail.defineEvent component name params [Yail.null]

end Declaration

def eventParams? (lang : Language) (w : Workspace) (b : Block) : Option (List String) := do
  let (component, event) ← b.member?
  let c ← w.components.get? component
  let type ← lang.componentType? c.genus
  let e ← type.event? event
  return e.params.map (·.name)

def declarationOf? (lang : Language) (w : Workspace) (id : BlockId) : Option Declaration := do
  let b ← w.blocks.get? id
  let genus ← lang.genus? b.genus
  match genus.kind with
  | .globalDef => return .global b.label
  | .procedureDef | .procedureWithResult => return .procedure b.label (w.procedureParams id)
  | .componentEvent =>
    let (component, event) ← b.member?
    return .event component event (← eventParams? lang w b)
  | _ => none

end BlockStudio
