import BlockStudio.Json.Record
import BlockStudio.Sync.Error

namespace BlockStudio

open Json

structure Backoff where
  attempts : Nat := 4
  initialDelayMs : Nat := 3000
  factor : Nat := 2
deriving Repr, DecidableEq, Inhabited

namespace Backoff

def maxDelayMs : Nat := UInt64.size - 1

def delaysFrom (factor : Nat) : Nat → Nat → List Nat
  | 0, _ => []
  | n + 1, delay => delay :: delaysFrom factor n (min (delay * factor) maxDelayMs)

def delaysMs (b : Backoff) : List Nat := delaysFrom b.factor b.attempts b.initialDelayMs

def toJson (b : Backoff) : Json :=
  object [("attempts", count b.attempts), ("initial_delay_ms", count b.initialDelayMs), ("factor", count b.factor)]

def ofJson? (j : Json) : Option Backoff := do
  let [attempts, initialDelayMs, factor] ← j.fields? ["attempts", "initial_delay_ms", "factor"] | none
  return {
    attempts := ← withDefault 4 count32? attempts
    initialDelayMs := ← withDefault 3000 count64? initialDelayMs
    factor := ← withDefault 2 count32? factor }

end Backoff

def troubleshooting : String :=
  "Unable to reach the companion on the device. Check that the device is plugged in, USB debugging is enabled, and the companion app is installed."

structure SyncConfig where
  port : Nat := 8001
  appPackage : String := "edu.mit.appinventor.aicompanion3"
  appActivity : String := ".Screen1"
  backoff : Backoff := {}
  queueShutdownMs : Nat := 5000
  troubleshootingMessage : String := troubleshooting
deriving Repr, DecidableEq, Inhabited

namespace SyncConfig

def toJson (c : SyncConfig) : Json :=
  object [("port", count c.port), ("app_package", text c.appPackage), ("app_activity", text c.appActivity),
    ("backoff", c.backoff.toJson), ("queue_shutdown_timeout_ms", count c.queueShutdownMs),
    ("troubleshooting_message", text c.troubleshootingMessage)]

def ofJson? (j : Json) : Option SyncConfig := do
  let [port, package, activity, backoff, shutdown, message] ← j.fields? ["port", "app_package", "app_activity",
    "backoff", "queue_shutdown_timeout_ms", "troubleshooting_message"] | none
  let base : SyncConfig := {}
  return {
    port := ← withDefault base.port count16? port
    appPackage := ← withDefault base.appPackage text? package
    appActivity := ← withDefault base.appActivity text? activity
    backoff := ← withDefault {} Backoff.ofJson? backoff
    queueShutdownMs := ← withDefault base.queueShutdownMs count64? shutdown
    troubleshootingMessage := ← withDefault base.troubleshootingMessage text? message }

def ofText (s : String) : Except SyncError SyncConfig :=
  match (parse? s).bind ofJson? with
  | some c => .ok c
  | none => .error .config

end SyncConfig

end BlockStudio
