import BlockStudio.Proofs.Sync.Turns
import Mathlib.Algebra.Order.Group.Nat

/-! How a delivery ends over a device that fails in any way: how often it connects anew, and how long it waits. -/

namespace BlockStudio

namespace Backoff

end Backoff

namespace Transport

variable {σ : Type} {t : Transport σ} {connection port : ℕ} {request : String} {d d' : σ}

def Wrote (t : Transport σ) (connection : ConnectionId) (request : String) (d d' : σ) : Prop :=
  ∃ d₁ d₂, t.write connection request d = (true, d₁) ∧ t.write connection "\n" d₁ = (true, d₂) ∧
    t.flush connection d₂ = (true, d')

def Opened (t : Transport σ) (calls : List DeviceCall) (port : ℕ) (request : String) (connection : ConnectionId)
    (d d' : σ) : Prop :=
  ∃ d₁ d₂, t.callAll calls d = (.ok (), d₁) ∧ t.connect port d₁ = (.ok connection, d₂) ∧
    t.Wrote connection request d₂ d'

end Transport

namespace Controller

variable {σ : Type} {t : Transport σ} {c c' : Controller σ} {request device : String} {n : ℕ}

def ReadersDated (c : Controller σ) : Prop := ∀ r ∈ c.readers, r.generation ≤ c.link.generation

lemma readersDated_after (config : SyncConfig) (d : σ) (moves : List (Threads.Move σ)) :
    ((Threads.start config d).after t moves).shared.ReadersDated :=
  ((Threads.Dated.start config d).after moves).readers

def refusing : Transport (ℕ × List String) where
  call _ d := (.ok (), d)
  connect _ d :=
    match d with
    | (0, written) => (.ok 1, (0, written))
    | (n + 1, written) => (.error .io, (n, written))
  write _ text d := (true, (d.1, d.2 ++ [text]))
  flush _ d := (true, d)
  close _ d := d

end Controller

end BlockStudio
