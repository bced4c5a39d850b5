import BlockStudio.Device.Transport

namespace BlockStudio

inductive DeviceOp where
  | install
  | kill
  | start
  | forward
  | push
  | connect
  | write
  | flush
deriving Repr, DecidableEq

namespace DeviceOp

def name : DeviceOp → String
  | install => "install"
  | kill => "kill"
  | start => "start"
  | forward => "forward"
  | push => "push"
  | connect => "connect"
  | write => "write"
  | flush => "flush"

def ofName? (s : String) : Option DeviceOp :=
  [install, kill, start, forward, push, connect, write, flush].find? fun op => op.name = s

def ofCall : DeviceCall → DeviceOp
  | .install _ _ => install
  | .kill _ _ => kill
  | .start _ _ _ => start
  | .forward _ _ => forward
  | .push _ _ _ => push

end DeviceOp

structure SimDevice where
  log : List String := []
  written : String := ""
  /-- How often each operation is still to be refused; the first entry for it counts. -/
  refusals : List (DeviceOp × Nat) := []
  connections : Nat := 0
deriving Repr, Inhabited

namespace SimDevice

def describe : DeviceCall → String
  | .install d apk => Text.spaced ["install", d, apk]
  | .kill d package => Text.spaced ["kill", d, package]
  | .start d package activity => Text.spaced ["start", d, package, activity]
  | .forward d port => Text.spaced ["forward", d, Text.natText port]
  | .push d source target => Text.spaced ["push", d, source, target]

def record (line : String) (d : SimDevice) : SimDevice := { d with log := d.log ++ [line] }

def refuseNext (op : DeviceOp) (times : Nat) (d : SimDevice) : SimDevice :=
  { d with refusals := (op, times) :: d.refusals }

def use (op : DeviceOp) (d : SimDevice) : Bool × SimDevice :=
  match d.refusals.lookup op with
  | some (n + 1) => (true, d.refuseNext op n)
  | _ => (false, d)

def refusal (op : DeviceOp) : SyncError := .transport (op.name ++ " refused")

def call (c : DeviceCall) (d : SimDevice) : Except SyncError Unit × SimDevice :=
  let (refused, d) := (d.record (describe c)).use (.ofCall c)
  (if refused then .error (refusal (.ofCall c)) else .ok (), d)

def connect (port : Nat) (d : SimDevice) : Except SyncError ConnectionId × SimDevice :=
  let (refused, d) := (d.record (Text.spaced ["connect", Text.natText port])).use .connect
  if refused then (.error (refusal .connect), d)
  else (.ok d.connections, { d with connections := d.connections + 1 })

def write (_ : ConnectionId) (text : String) (d : SimDevice) : Bool × SimDevice :=
  let (refused, d) := d.use .write
  if refused then (false, d) else (true, { d with written := d.written ++ text })

def flush (_ : ConnectionId) (d : SimDevice) : Bool × SimDevice :=
  let (refused, d) := d.use .flush
  (!refused, d)

def close (_ : ConnectionId) (d : SimDevice) : SimDevice := d.record "close"

def transport : Transport SimDevice where
  call := call
  connect := connect
  write := write
  flush := flush
  close := close

def clear (d : SimDevice) : SimDevice := { d with log := [], written := "" }

def newest? (d : SimDevice) : Option ConnectionId := if d.connections = 0 then none else some (d.connections - 1)

end SimDevice

end BlockStudio
