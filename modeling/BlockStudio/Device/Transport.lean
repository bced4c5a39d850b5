import BlockStudio.Device.Call

namespace BlockStudio

abbrev ConnectionId := Nat

structure Transport (σ : Type) where
  call : DeviceCall → σ → Except SyncError Unit × σ
  connect : Nat → σ → Except SyncError ConnectionId × σ
  write : ConnectionId → String → σ → Bool × σ
  flush : ConnectionId → σ → Bool × σ
  close : ConnectionId → σ → σ

namespace Transport

variable {σ : Type} (t : Transport σ)

def writeRequest (connection : ConnectionId) (request : String) (d : σ) : Bool × σ :=
  match t.write connection request d with
  | (false, d) => (false, d)
  | (true, d) =>
    match t.write connection "\n" d with
    | (false, d) => (false, d)
    | (true, d) => t.flush connection d

def callAll : List DeviceCall → σ → Except SyncError Unit × σ
  | [], d => (.ok (), d)
  | c :: rest, d =>
    match t.call c d with
    | (.ok _, d) => callAll rest d
    | (.error e, d) => (.error e, d)

def openWith (port : Nat) (request : String) (d : σ) : Except SyncError ConnectionId × σ :=
  match t.connect port d with
  | (.error e, d) => (.error e, d)
  | (.ok connection, d) =>
    match t.writeRequest connection request d with
    | (true, d) => (.ok connection, d)
    | (false, d) => (.error .io, t.close connection d)

end Transport

structure Link (σ : Type) where
  device : σ
  writer : Option ConnectionId := none
  /-- Counts connections, so that readers of older ones can tell. -/
  generation : Nat := 0

namespace Link

variable {σ : Type} (t : Transport σ)

def closeWriter (l : Link σ) : Link σ :=
  match l.writer with
  | some connection => { l with device := t.close connection l.device, writer := none }
  | none => l

def drop (l : Link σ) : Link σ := { l.closeWriter t with generation := l.generation + 1 }

def write (request : String) (l : Link σ) : Bool × Link σ :=
  match l.writer with
  | none => (false, l)
  | some connection =>
    let (ok, device) := t.writeRequest connection request l.device
    (ok, { l with device })

def call (c : DeviceCall) (l : Link σ) : Except SyncError Unit × Link σ :=
  let (result, device) := t.call c l.device
  (result, { l with device })

def reconnect (calls : List DeviceCall) (port : Nat) (request : String) (l : Link σ) :
    Except SyncError ConnectionId × Link σ :=
  let l := l.drop t
  match t.callAll calls l.device with
  | (.error e, device) => (.error e, { l with device })
  | (.ok _, device) =>
    match t.openWith port request device with
    | (.error e, device) => (.error e, { l with device })
    | (.ok connection, device) => (.ok connection, { l with device, writer := some connection })

end Link

end BlockStudio
