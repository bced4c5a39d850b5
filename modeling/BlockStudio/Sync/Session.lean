namespace BlockStudio

inductive ConnectionState where
  | disconnected
  | reconnecting
  | connected
deriving Repr, DecidableEq, Inhabited

structure Session where
  state : ConnectionState := .disconnected
  /-- Writes are believed to reach the device. -/
  happy : Bool := false
  plugged : Nat := 0
  phone : Bool := false
  selected : Option String := none
  waiting : Bool := false
deriving Repr, DecidableEq, Inhabited

namespace Session

def select (s : Session) (serial : Option String) : Session := { s with selected := serial }

def beginReconnect (s : Session) : Session := { s with state := .reconnecting, happy := false }

def markConnected (s : Session) : Session := { s with state := .connected, happy := true, phone := true }

def markUnhappy (s : Session) : Session :=
  { s with happy := false, state := if s.state = .connected then .disconnected else s.state }

def markDisconnected (s : Session) : Session := { s with state := .disconnected, happy := false, phone := false }

def plug (s : Session) : Session := { s with plugged := s.plugged + 1 }

def unplug (s : Session) (serial : String) : Session × Bool :=
  let s := { s with plugged := s.plugged - 1 }
  if s.selected = some serial then ({ s.markDisconnected with selected := none }, true) else (s, false)

def setWaiting (s : Session) (on : Bool) : Session := { s with waiting := on }

end Session

end BlockStudio
