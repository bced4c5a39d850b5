import BlockStudio.Compile.BuildError

namespace BlockStudio

inductive SyncError where
  | io
  | transport (message : String)
  | unreachable (message : String)
  | queueCancelled
  | duplicateComponent (name : String)
  | protocol (message : String)
  | noDevice
  | config
  | build (e : BuildError)
  | edit (e : EditError)
deriving Repr, DecidableEq

namespace SyncError

def message : SyncError → String
  | io => "I/O error"
  | transport m => "Transport error: " ++ m
  | unreachable m => m
  | queueCancelled => "The task queue was cancelled"
  | duplicateComponent name => "Duplicate live component name: " ++ name
  | protocol m => "Malformed response frame: " ++ m
  | noDevice => "No device selected"
  | config => "Invalid sync configuration"
  | build e => "Compile error: " ++ e.message
  | edit e => "Block model error: " ++ e.message

def isUnrecoverable : SyncError → Bool
  | duplicateComponent _ => true
  | _ => false

end SyncError

end BlockStudio
