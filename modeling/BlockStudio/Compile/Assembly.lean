import BlockStudio.Compile.Program
import BlockStudio.Compile.BuildError

namespace BlockStudio

inductive Line where
  | blank
  | header
  | comment (name : String)
  | form (f : Form)

def Line.text : Line → String
  | blank => ""
  | header => "#|\n$Source $Yail\n|#"
  | comment name => ";;; " ++ name
  | form f => f.render

namespace Assembly

def defaultPackage : String := "appinventor.ai_user"

def sessionForm : String := "Screen1"

def propertySetter (rules : LinkRules) (c : Component) (property value : String) : Form :=
  let type := rules.propertyType c.genus property
  Yail.setProperty c.name property (Yail.propertyValue type value) type

def propertySetters (rules : LinkRules) (c : Component) : List Form :=
  c.properties.entries.map fun p => propertySetter rules c p.1 p.2

def addComponent (rules : LinkRules) (c : Component) : Form :=
  .call "add-component" (.word (c.parent.getD sessionForm) :: .word c.genus :: .word c.name ::
    propertySetters rules c)

def formProperties (rules : LinkRules) (c : Component) : List Form :=
  match propertySetters rules c with
  | [] => []
  | setters => [.call "do-after-form-creation" setters]

def creation (rules : LinkRules) (c : Component) : List Form :=
  if c.parent.isNone then formProperties rules c else [addComponent rules c]

def handlers (code : BlockCode) (c : Component) : List Form := code.handlersOf c.name

def appLines (rules : LinkRules) (package : String) (root : Component) (walk : List Component)
    (code : BlockCode) : List Line :=
  [.header, .blank, .form (.call "define-form" [.word (package ++ "." ++ root.name), .word root.name]),
    .form (.call "require" [.word "<com.google.youngandroid.runtime>"])] ++
  walk.flatMap (fun c => [.blank, .comment c.name, .blank] ++
    (creation rules c ++ handlers code c).map .form) ++
  (if code.globals.isEmpty then [] else [.blank]) ++
  code.globals.map .form ++
  [.form (.call "init-runtime" [])]

def liveLines (rules : LinkRules) (root : Component) (walk : List Component) (code : BlockCode) : List Line :=
  let firstName := if root.name = sessionForm then [] else [Yail.renameComponent sessionForm root.name]
  (([Form.call "clear-current-form" []] ++ firstName ++ walk.flatMap (creation rules) ++ code.globals ++
    walk.flatMap (handlers code) ++
    [Form.call "call-Initialize-of-components" (walk.map fun c => .symbol c.name)])).map .form

def lines (rules : LinkRules) (package : String) (t : ComponentTree) (code : BlockCode) (live : Bool) :
    Except BuildError (List Line) :=
  match t.root? with
  | none => .error .noRootForm
  | some root =>
    if live then .ok (liveLines rules root t.walk code) else .ok (appLines rules package root t.walk code)

def text (lines : List Line) : String := String.join (lines.map fun l => l.text ++ "\n")

def program (rules : LinkRules) (package : String) (t : ComponentTree) (code : BlockCode) (live : Bool) :
    Except BuildError String :=
  (lines rules package t code live).map text

end Assembly

end BlockStudio
