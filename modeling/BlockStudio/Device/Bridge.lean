import BlockStudio.Device.Call

namespace BlockStudio

inductive BridgeRun where
  | notStarted (reason : String)
  | exited (code : Nat) (stderr : String)
deriving Repr, DecidableEq

namespace BridgeRun

def args (call : DeviceCall) : List String := "-s" :: call.device :: call.bridgeArgs

/-- No argument of a program can hold the zero character. -/
def canStart (call : DeviceCall) : Bool := (args call).all fun a => a.toList.all fun ch => ch.toNat != 0

def result (run : BridgeRun) (program : String) (call : DeviceCall) : Except SyncError Unit :=
  match run with
  | notStarted reason => .error (.transport ("Failed to execute " ++ program ++ ": " ++ reason))
  | exited 0 _ => .ok ()
  | exited code stderr =>
    .error (.transport ("adb " ++ Text.spaced call.bridgeArgs ++ " failed with exit code Some(" ++
      Text.natText code ++ "): " ++ Text.trim stderr))

end BridgeRun

end BlockStudio
