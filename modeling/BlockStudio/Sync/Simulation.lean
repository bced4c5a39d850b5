import BlockStudio.Sync.Inbox
import BlockStudio.Device.Simulated

namespace BlockStudio.Controller

def newestReader? (c : Controller SimDevice) : Option Reader := c.link.device.newest?.bind c.reader?

def reply (bytes : List UInt8) (c : Controller SimDevice) : Controller SimDevice × Bool :=
  match c.newestReader? with
  | some r => (c.receive r bytes, true)
  | none => (c, false)

def hangUp (c : Controller SimDevice) : Controller SimDevice × Bool :=
  match c.newestReader? with
  | some r => (c.endReader SimDevice.transport r, true)
  | none => (c, false)

def readError (interrupted : Bool) (c : Controller SimDevice) : Controller SimDevice × Bool :=
  if interrupted then (c, c.newestReader?.isSome) else c.hangUp

def onSimulated (f : SimDevice → SimDevice) (c : Controller SimDevice) : Controller SimDevice :=
  { c with link := { c.link with device := f c.link.device } }

end BlockStudio.Controller
