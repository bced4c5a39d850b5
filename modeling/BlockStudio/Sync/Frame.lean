import BlockStudio.Sync.Error
import BlockStudio.Sync.Payload
import BlockStudio.Text.Numeral

namespace BlockStudio

inductive Purpose where
  | load
  | block
  | doIt
  | property
  | component
  | other (name : String)
deriving Repr, DecidableEq

namespace Purpose

def name : Purpose → String
  | load => "load"
  | block => "block"
  | doIt => "doit"
  | property => "property"
  | component => "component"
  | other s => s

def ofName (s : String) : Purpose :=
  if s = "load" then load
  else if s = "block" then block
  else if s = "doit" then doIt
  else if s = "property" then property
  else if s = "component" then component
  else other s

def isOther : Purpose → Bool
  | other _ => true
  | _ => false

end Purpose

def originText (origin : Option BlockId) : String :=
  match origin with
  | some id => Text.natText id
  | none => "-1"

def wrapRequest (code : String) (purpose : Purpose) (origin : Option BlockId) : String :=
  "(process-repl-input \"" ++ purpose.name ++ ":" ++ originText origin ++ "\" (begin " ++ code ++ "))"

structure Response where
  purpose : Purpose
  origin : Option BlockId
  success : Bool
  payload : String
deriving Repr, DecidableEq

inductive FrameError where
  | noStatus (body : String)
  | noPayload (body : String)
  | noOrigin (header : String)
  | unknownStatus (status : String)
  | badOrigin (origin : String)
deriving Repr, DecidableEq

def FrameError.message : FrameError → String
  | noStatus body => "missing '@@' in '" ++ body ++ "'"
  | noPayload body => "missing '==' in '" ++ body ++ "'"
  | noOrigin header => "missing origin in '" ++ header ++ "'"
  | unknownStatus status => "unknown status '" ++ status ++ "'"
  | badOrigin origin => "bad origin id '" ++ origin ++ "'"

namespace Response

def statusText (success : Bool) : String := if success then "Success" else "Failure"

def readStatus (s : String) : Except FrameError Bool :=
  if s = "Success" then .ok true
  else if s = "Failure" then .ok false
  else .error (.unknownStatus s)

def readOrigin (s : String) : Except FrameError (Option BlockId) :=
  match Text.integer? s with
  | some n => .ok (if 0 ≤ n then some n.toNat else none)
  | none => .error (.badOrigin s)

def require (e : FrameError) : Option α → Except FrameError α
  | some a => .ok a
  | none => .error e

def parse (body : String) : Except FrameError Response := do
  let (header, rest) ← require (.noStatus body) (Text.cut "@@" body)
  let (status, payload) ← require (.noPayload body) (Text.cut "==" rest)
  let (purpose, origin) ← require (.noOrigin header) (Text.cutLast ':' header)
  let success ← readStatus status
  let origin ← readOrigin origin
  return { purpose := .ofName purpose, origin, success, payload := Payload.unescape payload }

def body (r : Response) : String :=
  r.purpose.name ++ ":" ++ originText r.origin ++ "@@" ++ statusText r.success ++ "==" ++
    Payload.escape r.payload

def frame (r : Response) : String := "<<" ++ r.body ++ ">>"

end Response

end BlockStudio
