import BlockStudio.History.Error
import BlockStudio.Workspace.Document

namespace BlockStudio

structure Store (σ : Type) where
  snapshot : σ → Except HistoryError String
  restore : String → σ → Except HistoryError σ

def Workspace.store : Store Workspace where
  snapshot w := .ok w.snapshot
  restore s _ :=
    match Workspace.ofText? s with
    | some w => .ok w
    | none => .error .snapshot

structure SaveSink (τ : Type) where
  write : String → String → τ → Except String Unit × τ

end BlockStudio
