import BlockStudio.Sync.Error
import BlockStudio.Text.Utf8

namespace BlockStudio

inductive DeviceCall where
  | install (device apk : String)
  | kill (device package : String)
  | start (device package activity : String)
  | forward (device : String) (port : Nat)
  | push (device source target : String)
deriving Repr, DecidableEq

namespace DeviceCall

def device : DeviceCall → String
  | install d _ => d
  | kill d _ => d
  | start d _ _ => d
  | forward d _ => d
  | push d _ _ => d

def bridgeArgs : DeviceCall → List String
  | install _ apk => ["install", "-r", apk]
  | kill _ package => ["shell", "am", "force-stop", package]
  | start _ package activity => ["shell", "am", "start", "-n", package ++ "/" ++ activity]
  | forward _ port => ["forward", "tcp:" ++ Text.natText port, "tcp:" ++ Text.natText port]
  | push _ source target => ["push", source, target]

end DeviceCall

end BlockStudio
