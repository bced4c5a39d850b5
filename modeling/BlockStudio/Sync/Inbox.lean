import BlockStudio.Sync.Controller

namespace BlockStudio

inductive Notice where
  | value (block : BlockId) (text : String)
  | blockError (block : BlockId) (message : String)
  | error (message : String)
  | projectLoaded
  | noise (text : String)
  | connectionLost
deriving Repr, DecidableEq

namespace Notice

def target (w : Workspace) (r : Response) : Option BlockId := r.origin.filter w.blocks.contains

def annotate (w : Workspace) (id : BlockId) (a : Remark) : Workspace :=
  { w with blocks := w.blocks.annotate id (some a) }

def ofResponse (w : Workspace) (r : Response) : Workspace × Option Notice :=
  if r.purpose = .load ∧ r.success then (w, some projectLoaded)
  else
    match target w r, r.success with
    | some id, true =>
      if r.payload = "" then (w, none) else (annotate w id (.result r.payload), some (value id r.payload))
    | some id, false => (annotate w id (.error r.payload), some (blockError id r.payload))
    | none, false => (w, some (error r.payload))
    | none, true => (w, none)

def ofEvent (w : Workspace) : ReaderEvent → Workspace × Option Notice
  | .frame r => ofResponse w r
  | .noise s => (w, some (noise s))
  | .malformed s => (w, some (error ("Malformed response from the companion: " ++ s)))
  | .closed => (w, some connectionLost)

end Notice

def Session.after (s : Session) : ReaderEvent → Session
  | .frame r => if r.purpose = .load then s.setWaiting false else s
  | _ => s

namespace Controller

variable {σ : Type}

def drainEvents : List ReaderEvent → Session → Workspace → Session × Workspace × List Notice
  | [], s, w => (s, w, [])
  | e :: rest, s, w =>
    let (w, notice) := Notice.ofEvent w e
    let (s, w, notices) := drainEvents rest (s.after e) w
    (s, w, notice.toList ++ notices)

def drain (w : Workspace) (c : Controller σ) : Controller σ × Workspace × List Notice :=
  let (session, w, notices) := drainEvents c.inbox c.session w
  ({ c with session, inbox := [] }, w, notices)

end Controller

end BlockStudio
