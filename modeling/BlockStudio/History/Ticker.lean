import BlockStudio.History.AutoSaver

namespace BlockStudio.AutoSaver

def firstTickMs (interval due : Nat) : Nat :=
  if interval = 0 then due else interval * max 1 ((due + interval - 1) / interval)

def firstDueTickMs (now : Nat) (s : AutoSaver) : Option Nat :=
  if s.saveRequired then
    s.lastChangeMs.map fun t => now + firstTickMs s.config.tickIntervalMs (t + s.config.idleMs - now)
  else none

def firesWithin (now windowMs : Nat) (s : AutoSaver) : Bool :=
  (s.firstDueTickMs now).any fun tick => tick ≤ now + windowMs

end BlockStudio.AutoSaver
