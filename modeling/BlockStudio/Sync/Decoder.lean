import BlockStudio.Sync.Frame
import BlockStudio.Text.Utf8

namespace BlockStudio

inductive Decoded where
  | frame (r : Response)
  | noise (text : String)
  | malformed (text : String)
deriving Repr, DecidableEq

structure Decoder where
  buffer : List UInt8 := []
deriving Repr, DecidableEq, Inhabited

namespace Decoder

def opening : UInt8 := 0x3C

def closing : UInt8 := 0x3E

def cutAtPair (b : UInt8) : List UInt8 → Option (List UInt8 × List UInt8)
  | [] => none
  | [_] => none
  | x :: y :: rest =>
    if x = b ∧ y = b then some ([], rest) else (cutAtPair b (y :: rest)).map fun p => (x :: p.1, p.2)

def promptLead : List Char := ['#', '|', 'k', 'a', 'w', 'a', ':']

def dropPrompt? (cs : List Char) : Option (List Char) :=
  match ((Text.dropLead? promptLead cs).bind Text.dropDigits?).bind (Text.dropLead? ['|', '#']) with
  | some rest => some (rest.dropWhile Text.isBlank)
  | none => none

def isPrompts : Nat → List Char → Bool
  | _, [] => true
  | 0, _ => false
  | n + 1, cs =>
    match dropPrompt? cs with
    | some rest => isPrompts n rest
    | none => false

def isBenign (s : String) : Bool :=
  let cs := s.toList.dropWhile Text.isBlank
  isPrompts cs.length cs

def noiseOf (bytes : List UInt8) : List Decoded :=
  let s := Utf8.text bytes
  if isBenign s then [] else [.noise s]

def readBody (bytes : List UInt8) : Decoded :=
  let s := Utf8.text bytes
  match Response.parse s with
  | .ok r => .frame r
  | .error _ => .malformed s

/-- Takes complete frames off the front. Each takes four bytes or more, so that `n` of half the length
is enough. -/
def drain : Nat → List UInt8 → List Decoded × List UInt8
  | 0, bs => ([], bs)
  | n + 1, bs =>
    match cutAtPair opening bs with
    | none => ([], bs)
    | some (lead, rest) =>
      match cutAtPair closing rest with
      | none => (noiseOf lead, opening :: opening :: rest)
      | some (body, rest) =>
        let (out, left) := drain n rest
        (noiseOf lead ++ readBody body :: out, left)

def push (d : Decoder) (bytes : List UInt8) : List Decoded × Decoder :=
  let bs := d.buffer ++ bytes
  let (out, left) := drain (bs.length + 1) bs
  (out, ⟨left⟩)

def pending (d : Decoder) : Nat := d.buffer.length

def finish (d : Decoder) : Option Decoded × Decoder := ((noiseOf d.buffer).head?, {})

end Decoder

end BlockStudio
