import AutoXdp.DelimitedLines
import AutoXdp.PyJson

/-! The relay subscription of the daemon (`_drain_relay_lines` in `auto_xdp/syncer.py`):
calls that share one pending buffer, and the loop that drops it at an exception. -/
namespace AutoXdp
open DelimitedLines PyJson

namespace Relay

def newline : BitVec 8 := 0x0A

/-- How the receiving of a call ends: nothing more to read, an empty read, another error
of the socket. -/
inductive RecvEnd where
  | wouldBlock
  | closed
  | failed
  deriving DecidableEq, Repr

/-- The reads of one call. Only the end of the stream reads as no bytes. -/
structure Call where
  chunks : List (List (BitVec 8))
  ending : RecvEnd
  nonempty : ∀ chunk ∈ chunks, chunk ≠ []

def Call.bytes (c : Call) : List (BitVec 8) := c.chunks.flatten

inductive DrainError where
  | connectionReset
  | osError
  | attributeError
  | load (e : LoadError)
  deriving DecidableEq, Repr

/-- What the loop takes for a lost relay, `except (ConnectionResetError, OSError)`. -/
def DrainError.Disconnects (e : DrainError) : Prop := e = .connectionReset ∨ e = .osError

/-- The buffer that a call leaves behind, and what it returns or raises. -/
structure Drained where
  pending : List (BitVec 8)
  result : Except DrainError Bool
  deriving DecidableEq

def typeKey : Text := "type".toList.map Char.toNat

def portChange : Text := "port_change".toList.map Char.toNat

/-- `msg.get("type") == "port_change"`. -/
def isPortChange (members : List (Text × Json)) : Bool :=
  match get members typeKey with
  | some (.string t) => t = portChange
  | _ => false

variable (lim : Limits)

/-- One line of the loop: whether it is a port change. -/
def readLine (raw : List (BitVec 8)) : Except DrainError Bool :=
  if raw = [] then .ok false
  else match loads lim raw with
    | .error .jsonDecodeError => .ok false
    | .error e => .error (.load e)
    | .ok (.object members) => .ok (isPortChange members)
    | .ok _ => .error .attributeError

/-- The loop over the lines of the buffer; the first argument is at least its length. -/
def readLines : ℕ → List (BitVec 8) → Bool → Drained
  | 0, pending, found => ⟨pending, .ok found⟩
  | n+1, pending, found =>
    match pending.findIdx? (· = newline) with
    | none => ⟨pending, .ok found⟩
    | some lineEnd =>
      let rest := pending.drop (lineEnd+1)
      match readLine lim (pending.take lineEnd) with
      | .error e => ⟨rest, .error e⟩
      | .ok f => readLines n rest (found || f)

/-- `_drain_relay_lines`. -/
def drainRelayLines (pending : List (BitVec 8)) (c : Call) : Drained :=
  let pending := pending ++ c.bytes
  match c.ending with
  | .closed => ⟨pending, .error .connectionReset⟩
  | .failed => ⟨pending, .error .osError⟩
  | .wouldBlock => readLines lim pending.length pending false

/-- The calls on one connection. The first exception ends it: the loop closes the socket
and clears the buffer, or leaves with the exception itself. -/
def run : List (BitVec 8) → List Call → List Drained
  | _, [] => []
  | pending, c :: cs =>
    let out := drainRelayLines lim pending c
    match out.result with
    | .ok _ => out :: run out.pending cs
    | .error _ => [out]

/-! The stream itself. -/

/-- The bytes that the relay sent, up to the end of the stream. -/
def received : List Call → List (BitVec 8)
  | [] => []
  | c :: cs => c.bytes ++ if c.ending = .wouldBlock then received cs else []

/-- The bytes that arrived in calls before the one that met the end of the stream. -/
def parsed : List Call → List (BitVec 8)
  | [] => []
  | c :: cs => if c.ending = .wouldBlock then c.bytes ++ parsed cs else []

/-- The line is a JSON object of type `port_change`. -/
def IsPortChange (line : List (BitVec 8)) : Prop :=
  ∃ members, loads lim line = .ok (.object members) ∧ isPortChange members = true

/-- The line is read by `json.loads` and is no object, or `json.loads` raises another
exception than `JSONDecodeError`. -/
def Faulty (line : List (BitVec 8)) : Prop :=
  match loads lim line with
  | .error e => e ≠ .jsonDecodeError
  | .ok (.object _) => False
  | .ok _ => True

/-- The calls on a connection report a port change exactly when the stream has a line that
is one; a call that returns leaves the bytes behind the last newline, and the exceptions
are those of a lost relay. -/
structure Framing (calls : List Call) : Prop where
  reports : (∃ out ∈ run lim [] calls, out.result = .ok true) ↔
    ∃ line ∈ lines newline (received calls), IsPortChange lim line
  remainder : ∀ k out found, (run lim [] calls)[k]? = some out → out.result = .ok found →
    out.pending = tail newline (received (calls.take (k+1)))
  exceptions : ∀ out ∈ run lim [] calls, ∀ e, out.result = .error e → e.Disconnects

end Relay

end AutoXdp
