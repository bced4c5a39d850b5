import BlockStudio.Device.Bridge

namespace BlockStudio

structure SimBridge where
  missing : Bool := false
  exit : Nat := 0
  stderr : String := ""
deriving Repr, DecidableEq

namespace SimBridge

def program : String := "./adb.sh"

def logged (call : DeviceCall) : String := String.join ((BridgeRun.args call).map (· ++ "|")) ++ "\n"

/-- Exit codes are bytes. -/
def run (b : SimBridge) (call : DeviceCall) : BridgeRun × Option String :=
  if !BridgeRun.canStart call then (.notStarted "nul byte found in provided data", none)
  else if b.missing then (.notStarted "No such file or directory (os error 2)", none)
  else (.exited (b.exit % 256) b.stderr, some (logged call))

def call (b : SimBridge) (c : DeviceCall) : Except SyncError Unit × Option String :=
  let (run, line) := b.run c
  (run.result program c, line)

end SimBridge

end BlockStudio
