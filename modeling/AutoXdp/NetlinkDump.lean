import AutoXdp.WordBytes
import AutoXdp.XdpKeys
import Mathlib.Data.List.Basic
import Mathlib.Tactic.Basic

/-! The SOCK_DIAG dump (`_nldiag_dump` in `auto_xdp/discovery.py`): netlink messages read
chunk by chunk out of one receive buffer. -/
namespace AutoXdp
open WordBytes

/-- A row of the dump, ports in host byte order. -/
structure DiagRow where
  sport : U16
  dport : U16
  src : List U8
  dst : List U8
  inode : U32
  rqueue : U32
  deriving DecidableEq, Repr

inductive DumpError where
  | closed
  | invalidMessage
  | truncatedMessage
  | truncatedError
  | failed (error : ℤ)
  | trailing
  deriving DecidableEq, Repr

def DumpError.text : DumpError → String
  | closed => "SOCK_DIAG closed before NLMSG_DONE"
  | invalidMessage => "SOCK_DIAG returned an invalid netlink message"
  | truncatedMessage => "SOCK_DIAG returned a truncated netlink message"
  | truncatedError => "SOCK_DIAG returned a truncated NLMSG_ERROR"
  | failed error => "SOCK_DIAG dump failed with errno " ++ toString (-error)
  | trailing => "SOCK_DIAG returned trailing incomplete data"

def nlmsgError : ℕ := 2
def nlmsgDone : ℕ := 3
def sockDiagByFamily : ℕ := 20
def nlmsghdrSz : ℕ := 16
def diagMsgSz : ℕ := 72

namespace Diag

def halfAt (bs : List U8) (off : ℕ) : U16 := bs.getD (off+1) 0 ++ bs.getD off 0

def ntohs (raw : U16) : U16 := raw.extractLsb' 0 8 ++ raw.extractLsb' 8 8

def bytesAt (bs : List U8) (off len : ℕ) : List U8 := (bs.drop off).take len

def msgLen (buf : List U8) (off : ℕ) : ℕ := (wordAt buf off).toNat

def msgType (buf : List U8) (off : ℕ) : ℕ := (halfAt buf (off+4)).toNat

/-- The errno of an NLMSG_ERROR, a signed word behind the header. -/
def errorAt (buf : List U8) (off : ℕ) : ℤ := (wordAt buf (off+nlmsghdrSz)).toInt

/-- `_DIAG_MSG.unpack_from`, the fields the dump yields. -/
def unpackFrom (buf : List U8) (off : ℕ) : DiagRow where
  sport := ntohs (halfAt buf (off+4))
  dport := ntohs (halfAt buf (off+6))
  src := bytesAt buf (off+8) 16
  dst := bytesAt buf (off+24) 16
  rqueue := wordAt buf (off+56)
  inode := wordAt buf (off+68)

/-- The length of a message with its padding, `(msg_len + 3) & ~3`. -/
def aligned (len : ℕ) : ℕ := (len+3) - (len+3)%4

/-- What one pass of the inner loop does at an offset. -/
inductive Pass where
  | fail (e : DumpError)
  | done
  | next (row : Option DiagRow) (off : ℕ)

def pass (buf : List U8) (n off : ℕ) : Pass :=
  if msgLen buf off < nlmsghdrSz then .fail .invalidMessage
  else if n < off + msgLen buf off then .fail .truncatedMessage
  else if msgType buf off = nlmsgDone then .done
  else if msgType buf off = nlmsgError ∧ msgLen buf off < nlmsghdrSz + 4 then
    .fail .truncatedError
  else if msgType buf off = nlmsgError ∧ errorAt buf off ≠ 0 then
    .fail (.failed (errorAt buf off))
  else
    -- the payload is looked for in the buffer, whatever length the message declares
    .next (if msgType buf off = sockDiagByFamily ∧ off + nlmsghdrSz + diagMsgSz ≤ n
        then some (unpackFrom buf (off+nlmsghdrSz)) else none)
      (off + aligned (msgLen buf off))

/-- The inner loop over the first `n` bytes of the buffer, of at most `steps` passes: the
rows it yields, then an error or whether NLMSG_DONE was met; `none` when the passes do
not suffice. -/
def scan (buf : List U8) (n : ℕ) : ℕ → ℕ → Option (List DiagRow × Except DumpError Bool)
  | 0, off =>
    if off + nlmsghdrSz ≤ n then none
    else some ([], if off ≠ n then .error .trailing else .ok false)
  | steps+1, off =>
    if off + nlmsghdrSz ≤ n then
      match pass buf n off with
      | .fail e => some ([], .error e)
      | .done => some ([], .ok true)
      | .next row off' =>
        (scan buf n steps off').map fun (rows, fin) => (row.toList ++ rows, fin)
    else some ([], if off ≠ n then .error .trailing else .ok false)

/-- `recv_into`: the chunk overwrites the head of the buffer, older bytes stay behind it. -/
def recvInto (buf chunk : List U8) : List U8 := chunk ++ buf.drop chunk.length

/-- `_nldiag_dump` over the chunks that the socket delivers; once they are used up the
socket reads as closed. Every chunk gets `n/16` passes of the inner loop. -/
def nldiagDump (buf : List U8) :
    List (List U8) → Option (List DiagRow × Except DumpError Unit)
  | [] => some ([], .error .closed)
  | chunk :: chunks =>
    if chunk.length = 0 then some ([], .error .closed)
    else match scan (recvInto buf chunk) chunk.length (chunk.length/16) 0 with
      | none => none
      | some (rows, .error e) => some (rows, .error e)
      | some (rows, .ok true) => some (rows, .ok ())
      | some (rows, .ok false) =>
        (nldiagDump (recvInto buf chunk) chunks).map fun (more, fin) => (rows ++ more, fin)

end Diag

/-! What a dump says, read off its messages. -/

/-- A netlink message: where it starts in which chunk. -/
structure NlMsg where
  chunk : List U8
  off : ℕ
  deriving DecidableEq

namespace NlMsg
open Diag

def len (m : NlMsg) : ℕ := msgLen m.chunk m.off

def type (m : NlMsg) : ℕ := msgType m.chunk m.off

/-- The bytes of the message itself. -/
def bytes (m : NlMsg) : List U8 := (m.chunk.drop m.off).take m.len

/-- The message and the length it declares lie inside the chunk. -/
structure Framed (m : NlMsg) : Prop where
  header : m.off + 16 ≤ m.chunk.length
  atLeast : 16 ≤ m.len
  atMost : m.off + m.len ≤ m.chunk.length

/-- An error message: too short to say which, or with an errno. -/
def Erroneous (m : NlMsg) : Prop :=
  m.type = nlmsgError ∧ (m.len < 20 ∨ errorAt m.chunk m.off ≠ 0)

def IsSock (m : NlMsg) : Prop := m.type = sockDiagByFamily

instance (m : NlMsg) : Decidable m.IsSock := inferInstanceAs (Decidable (_ = _))

/-- The row of a socket message, read from the bytes of the message alone. -/
def row (m : NlMsg) : Option DiagRow :=
  if nlmsghdrSz + diagMsgSz ≤ m.bytes.length then some (unpackFrom m.bytes nlmsghdrSz) else none

end NlMsg

/-- How the messages of a chunk, or of a dump, come to an end. -/
inductive DumpEnd where
  | done
  | broken
  | exhausted
  deriving DecidableEq, Repr

/-- `Messages chunk off ms e`: from `off` on the chunk holds the messages `ms` and then
ends as `e` says. -/
inductive Messages (chunk : List U8) : ℕ → List NlMsg → DumpEnd → Prop
  | exhausted : Messages chunk chunk.length [] .exhausted
  | partialHeader {off : ℕ} (hroom : chunk.length < off + 16) (hne : off ≠ chunk.length) :
      Messages chunk off [] .broken
  | unframed {off : ℕ} (hroom : off + 16 ≤ chunk.length) (hm : ¬(NlMsg.mk chunk off).Framed) :
      Messages chunk off [] .broken
  | done {off : ℕ} (hm : (NlMsg.mk chunk off).Framed)
      (ht : (NlMsg.mk chunk off).type = nlmsgDone) : Messages chunk off [] .done
  | erroneous {off : ℕ} (hm : (NlMsg.mk chunk off).Framed)
      (he : (NlMsg.mk chunk off).Erroneous) : Messages chunk off [] .broken
  | message {off : ℕ} {ms : List NlMsg} {e : DumpEnd} (hm : (NlMsg.mk chunk off).Framed)
      (ht : (NlMsg.mk chunk off).type ≠ nlmsgDone) (he : ¬(NlMsg.mk chunk off).Erroneous)
      (rest : Messages chunk (off + Diag.aligned (NlMsg.mk chunk off).len) ms e) :
      Messages chunk off (⟨chunk, off⟩ :: ms) e

/-- The messages of a dump before its end: a chunk that is used up leads to the next one,
and no chunk or an empty one breaks the dump off. -/
inductive DumpMessages : List (List U8) → List NlMsg → DumpEnd → Prop
  | closed : DumpMessages [] [] .broken
  | zeroLength {chunks : List (List U8)} : DumpMessages ([] :: chunks) [] .broken
  | last {chunk : List U8} {chunks : List (List U8)} {ms : List NlMsg} {e : DumpEnd}
      (hc : chunk ≠ []) (h : Messages chunk 0 ms e) (he : e ≠ .exhausted) :
      DumpMessages (chunk :: chunks) ms e
  | more {chunk : List U8} {chunks : List (List U8)} {ms ms' : List NlMsg} {e : DumpEnd}
      (hc : chunk ≠ []) (h : Messages chunk 0 ms .exhausted)
      (rest : DumpMessages chunks ms' e) : DumpMessages (chunk :: chunks) (ms ++ ms') e

end AutoXdp
