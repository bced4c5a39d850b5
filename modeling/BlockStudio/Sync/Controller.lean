import BlockStudio.Sync.Config
import BlockStudio.Sync.Decoder
import BlockStudio.Sync.Session
import BlockStudio.Device.Transport
import BlockStudio.Workspace.Basic

/-!
The controller of a session. Each section that runs under one lock is a function of its own here:
the caller's, the worker's that delivers requests, and those of the readers, one to a connection.
-/

namespace BlockStudio

inductive ReaderEvent where
  | frame (r : Response)
  | noise (text : String)
  | malformed (text : String)
  | closed
deriving Repr, DecidableEq

def ReaderEvent.ofDecoded : Decoded → ReaderEvent
  | .frame r => .frame r
  | .noise s => .noise s
  | .malformed s => .malformed s

structure Reader where
  connection : ConnectionId
  generation : Nat
  decoder : Decoder := {}
deriving Repr, DecidableEq

structure Controller (σ : Type) where
  config : SyncConfig
  session : Session := {}
  link : Link σ
  readers : List Reader := []
  inbox : List ReaderEvent := []

namespace Controller

variable {σ : Type} (t : Transport σ)

def new (config : SyncConfig) (device : σ) : Controller σ where
  config := config
  link := { device }

def onSession (f : Session → Session) (c : Controller σ) : Controller σ := { c with session := f c.session }

def report (events : List ReaderEvent) (c : Controller σ) : Controller σ := { c with inbox := c.inbox ++ events }

/-! Sections of a reader. -/

def reader? (connection : ConnectionId) (c : Controller σ) : Option Reader :=
  c.readers.find? (·.connection = connection)

def receive (r : Reader) (bytes : List UInt8) (c : Controller σ) : Controller σ :=
  let (out, decoder) := r.decoder.push bytes
  let readers := c.readers.map fun s => if s.connection = r.connection then { s with decoder } else s
  report (out.map .ofDecoded) { c with readers }

def readerFlush (r : Reader) (c : Controller σ) : Controller σ :=
  report (r.decoder.finish.1.toList.map .ofDecoded)
    { c with readers := c.readers.filter (·.connection ≠ r.connection) }

def isCurrent (r : Reader) (c : Controller σ) : Bool := c.link.generation = r.generation

def readerClose (r : Reader) (c : Controller σ) : Controller σ :=
  if c.isCurrent r then { c with link := c.link.closeWriter t } else c

def readerUnhappy (c : Controller σ) : Controller σ := c.onSession .markUnhappy

def readerClosed (c : Controller σ) : Controller σ := c.report [.closed]

def endReader (r : Reader) (c : Controller σ) : Controller σ :=
  let c := c.readerFlush r
  if c.isCurrent r then ((c.readerClose t r).readerUnhappy).readerClosed else c

def endReaderOf (connection : Option ConnectionId) (c : Controller σ) : Controller σ :=
  match connection.bind c.reader? with
  | some r => c.endReader t r
  | none => c

/-! Sections of the caller. -/

def dropLink (c : Controller σ) : Controller σ :=
  ({ c with link := c.link.drop t } : Controller σ).endReaderOf t c.link.writer

def selectDevice (serial : Option String) (c : Controller σ) : Controller σ :=
  ((c.onSession (·.select serial)).dropLink t).onSession .markUnhappy

def devicePlugged (c : Controller σ) : Controller σ := c.onSession .plug

def deviceUnplugged (serial : String) (c : Controller σ) : Controller σ :=
  let (session, wasSelected) := c.session.unplug serial
  let c := { c with session }
  if wasSelected then c.dropLink t else c

def onDevice (call : String → DeviceCall) (c : Controller σ) : Except SyncError Unit × Controller σ :=
  match c.session.selected with
  | none => (.error .noDevice, c)
  | some device =>
    let (result, link) := c.link.call t (call device)
    (result, { c with link })

/-! Sections of the worker. -/

def writeNow (request : String) (c : Controller σ) : Bool × Controller σ :=
  if c.session.happy then
    let (ok, link) := c.link.write t request
    (ok, { c with link })
  else (false, c)

def restartCalls (config : SyncConfig) (device : String) : List DeviceCall :=
  [.kill device config.appPackage, .start device config.appPackage config.appActivity,
   .forward device config.port]

def reconnect (request : String) (c : Controller σ) : Except SyncError Unit × Controller σ :=
  match c.session.selected with
  | none => (.error .noDevice, c)
  | some device =>
    let (result, link) := c.link.reconnect t (restartCalls c.config device) c.config.port request
    let c' := ({ c with link } : Controller σ).endReaderOf t c.link.writer
    match result with
    | .error e => (.error e, c')
    | .ok connection =>
      let r : Reader := { connection, generation := link.generation }
      (.ok (), { c' with readers := c'.readers ++ [r], session := c'.session.markConnected })

def retry (request : String) :
    List Nat → Except SyncError Unit × Controller σ → List Nat × Except SyncError Unit × Controller σ
  | _, (.ok _, c) => ([], .ok (), c)
  | [], (.error e, c) => ([], .error e, c)
  | delay :: delays, (.error _, c) =>
    let (waits, rest) := retry request delays (c.reconnect t request)
    (delay :: waits, rest)

structure Delivery (σ : Type) where
  result : Except SyncError Unit
  waitsMs : List Nat := []
  controller : Controller σ

def deliverAnew (request : String) (c : Controller σ) : Delivery σ :=
  match c.session.selected with
  | none => { result := .error .noDevice, controller := c.onSession .markDisconnected }
  | some _ =>
    let c := c.onSession .beginReconnect
    match retry t request c.config.backoff.delaysMs (c.reconnect t request) with
    | (waitsMs, .ok _, c) => { result := .ok (), waitsMs, controller := c }
    | (waitsMs, .error _, c) =>
      { result := .error (.unreachable c.config.troubleshootingMessage)
        waitsMs, controller := c.onSession .markDisconnected }

def deliver (request : String) (c : Controller σ) : Delivery σ :=
  match c.writeNow t request with
  | (true, c) => { result := .ok (), controller := c }
  | (false, c) => c.deliverAnew t request

def send (code : String) (purpose : Purpose) (origin : Option BlockId) (isLoad : Bool) (c : Controller σ) :
    Delivery σ :=
  let c := if isLoad then c.onSession (·.setWaiting true) else c
  c.deliver t (wrapRequest code purpose origin)

def loadProject (program : String) (c : Controller σ) : Delivery σ := c.send t program .load none true

end Controller

end BlockStudio
