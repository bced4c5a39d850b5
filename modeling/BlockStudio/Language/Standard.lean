import BlockStudio.Language.Basic
import BlockStudio.Language.GenusBuilder

namespace BlockStudio.Language

open GenusBuilder GenusName

def literalGenera : List Genus :=
  [(((new "number" .number).plug "number").label "0").build,
   ((new "text" .text).plug "text").build,
   (((new "true" .truth).plug "boolean").label "true").build,
   (((new "false" .falsity).plug "boolean").label "false").build,
   (((new "color" .color).plug "number").label "FF000000").build]

def controlGenera : List Genus :=
  [((((new "if" .branch).command.socket "test" "boolean").commandSocket "then").optionalCommandSocket
      "else").build,
   ((((new "choose" .choose).polyPlug.socket "test" "boolean").polySocket "then-return").polySocket
      "else-return").build,
   (((new "while" .whileLoop).command.socket "test" "boolean").commandSocket "do").build,
   ((((new "foreach" .forEach).command.socket "variable" "argument").commandSocket "do").socket
      "in list" "list").build,
   ((((((new "forrange" .forRange).command.socket "variable" "argument").commandSocket "do").socket
      "from" "number").socket "to" "number").socket "by" "number").build]

def variableGenera : List Genus :=
  [(((new "def" .globalDef).label "variable").untypedSocket "initialize to").build,
   (new "getter" .variableGet).untypedPlug.build,
   ((new "setter" .variableSet).command.untypedSocket "to").build,
   (((new argument .argument).plug "argument").label "x").build]

def procedureGenera : List Genus :=
  [(((new procedure .procedureDef).label "procedure").commandSocket "do").build,
   (((new procedureWithResult .procedureWithResult).label "procedure").untypedSocket "return").build,
   (new callerCommand .procedureCall).command.build,
   (new caller .procedureCall).untypedPlug.build]

def componentGenera : List Genus :=
  [(new componentEvent .componentEvent).build,
   (new componentGetter .componentGetter).untypedPlug.build,
   (new componentSetter .componentSetter).command.build,
   (new componentMethod .componentMethod).command.build,
   (new componentMethodValue .componentMethod).untypedPlug.build,
   ((new component .componentObject).plug "component").build,
   ((new componentTypeGetter .componentTypeGetter).untypedPlug.untypedSocket "component").build,
   ((new componentTypeSetter .componentTypeSetter).command.untypedSocket "component").build,
   ((new componentTypeMethod .componentTypeMethod).command.untypedSocket "component").build]

def binaryGenus (name op description plug : String) : Genus :=
  (((((new name .primitive).primitive op description).plug plug).socket "A" "number").socket
    "B" "number").build

def primitiveGenera : List Genus :=
  [binaryGenus "add" "+" "+" "number",
   binaryGenus "subtract" "-" "-" "number",
   binaryGenus "multiply" "*" "*" "number",
   binaryGenus "divide" "yail-divide" "/" "number",
   binaryGenus "lessthan" "<" "<" "boolean",
   binaryGenus "greaterthan" ">" ">" "boolean",
   (((((new "equal" .primitive).primitive "yail-equal?" "=").plug "boolean").untypedSocket
      "A").untypedSocket "B").build,
   ((((new "not" .primitive).primitive "yail-not" "not").plug "boolean").socket "test" "boolean").build,
   (((((new "join" .primitive).primitive "string-append" "join").plug "text").socket
      "text1" "text").socket "text2" "text").build,
   ((((new "length" .primitive).primitive "string-length" "length").plug "number").socket
      "text" "text").build,
   (((((new "make-a-list" .primitive).primitive "make-yail-list" "make a list").plugList
      "any").untypedSocket "item").untypedSocket "item2").build,
   (((((new "select-list-item" .primitive).primitive "yail-list-get-item" "select list item").polyPlug).socket
      "list" "list").socket "index" "number").build,
   ((((new "length-of-list" .primitive).primitive "yail-list-length" "length of list").plug
      "number").socket "list" "list").build]

def standardComponents : List ComponentType :=
  [{ name := "Form"
     properties := [⟨"Title", "text", "", none⟩, ⟨"BackgroundColor", "number", "&HFFFFFFFF", none⟩,
       ⟨"Scrollable", "boolean", "False", none⟩]
     events := [⟨"Initialize", []⟩, ⟨"BackPressed", []⟩] },
   { name := "Button"
     properties := [⟨"Text", "text", "Text for Button", none⟩, ⟨"Enabled", "boolean", "True", none⟩,
       ⟨"FontSize", "number", "14.0", none⟩, ⟨"BackgroundColor", "number", "&HFF444444", none⟩]
     events := [⟨"Click", []⟩, ⟨"LongClick", []⟩] },
   { name := "Label"
     properties := [⟨"Text", "text", "Text for Label", none⟩, ⟨"FontSize", "number", "14.0", none⟩,
       ⟨"Visible", "boolean", "True", none⟩] },
   { name := "TextBox"
     properties := [⟨"Text", "text", "", none⟩, ⟨"Hint", "text", "", none⟩]
     methods := [⟨"HideKeyboard", [], none⟩] },
   { name := "Clock"
     properties := [⟨"TimerInterval", "number", "1000", none⟩, ⟨"TimerEnabled", "boolean", "True", none⟩]
     events := [⟨"Timer", []⟩]
     methods := [⟨"Now", [], some "InstantInTime"⟩,
       ⟨"FormatTime", [⟨"instant", "InstantInTime"⟩], some "text"⟩] },
   { name := "Canvas"
     properties := [⟨"BackgroundColor", "number", "&HFFFFFFFF", none⟩, ⟨"LineWidth", "number", "2.0", none⟩]
     events := [⟨"Touched", [⟨"x", "number"⟩, ⟨"y", "number"⟩]⟩]
     methods := [⟨"DrawCircle", [⟨"x", "number"⟩, ⟨"y", "number"⟩, ⟨"r", "number"⟩], none⟩,
       ⟨"Clear", [], none⟩] }]

def standardGenera : List Genus :=
  literalGenera ++ controlGenera ++ variableGenera ++ procedureGenera ++ componentGenera ++ primitiveGenera

def standard : Language :=
  let base : Language :=
    { types := ["number", "text", "boolean", "list", "component", "argument", "InstantInTime"] }
  standardComponents.foldl addComponentType (standardGenera.foldl addGenus base)

end BlockStudio.Language
