import BlockStudio.Json.Record

namespace BlockStudio

open Json

structure AutoSaveConfig where
  capacity : Nat := 20
  idleSeconds : Nat := 5
  saveFailureLimit : Nat := 3
  tickIntervalMs : Nat := 1000
deriving Repr, DecidableEq, Inhabited

namespace AutoSaveConfig

def idleMs (c : AutoSaveConfig) : Nat := 1000 * c.idleSeconds

def toJson (c : AutoSaveConfig) : Json :=
  object [("capacity", count c.capacity), ("idle_seconds", count c.idleSeconds),
    ("save_failure_limit", count c.saveFailureLimit), ("tick_interval_ms", count c.tickIntervalMs)]

def ofJson? (j : Json) : Option AutoSaveConfig := do
  let [capacity, idleSeconds, limit, tick] ←
    j.fields? ["capacity", "idle_seconds", "save_failure_limit", "tick_interval_ms"] | none
  return {
    capacity := ← withDefault 20 count64? capacity
    idleSeconds := ← withDefault 5 count64? idleSeconds
    saveFailureLimit := ← withDefault 3 count32? limit
    tickIntervalMs := ← withDefault 1000 count64? tick }

def ofText? (s : String) : Option AutoSaveConfig := (parse? s).bind ofJson?

end AutoSaveConfig

end BlockStudio
