import AutoXdp.CursorParser
import AutoXdp.XdpKeys

/-! The packet parsers of the Minecraft handler (`handlers/minecraft_handler.c`). A cursor
runs from `start` to `data_end`, and `len` of its bytes lie before `end`. -/
namespace AutoXdp.Minecraft

def maxPacketIdBytes : ℕ := 5
def maxPacketLenBytes : ℕ := 3
def handshakeHostMax : ℕ := 255*3
def loginNameMax : ℕ := 16*3
def loginKeyMax : ℕ := 512
def loginSignatureMax : ℕ := 4096

inductive McState where
  | awaitAck | awaitHandshake | awaitStatusRequest | awaitLogin | awaitPing | pingComplete
  | directStatus | directLogin | legacyPing
  deriving DecidableEq, Repr

/-- A C function that moves `start` and reports failure. -/
abbrev McParser := CursorParser U8

/-- `read_byte`: one byte before `data_end` and before `end`. -/
def readByte : McParser U8 := fun c =>
  match c.data with
  | [] => none
  | b :: _ => if c.len = 0 then none else some (b, c.advance 1)

/-- `consume_bytes`. -/
def consumeBytes (n : U32) : McParser Unit := fun c =>
  let n := (n &&& 0x1FFF).toNat
  if n > c.data.length then none
  else if n > c.len then none
  else some ((), c.advance n)

/-- `MC_VARINT_BYTE` for each index up to `max_bytes`, the first with this shift. -/
def varintBytes : ℕ → ℕ → U32 → McParser U32
  | 0, _, _ => failure
  | n+1, shift, result => do
    let b ← readByte
    let result := result ||| ((b &&& 0x7F).setWidth 32 <<< shift)
    if b &&& 0x80 = 0 then return result
    varintBytes n (shift+7) result

/-- `read_varint`; its caller moves `start` by the bytes it read. The value is a `__s32`. -/
def readVarint (maxBytes : ℕ) : McParser U32 := varintBytes (min maxBytes 5) 0 0

def inspectStatusRequest (start : Cursor U8) : Bool :=
  let parser : McParser Unit := do
    let v ← readVarint 1
    guard (v = 1)
    let v ← readVarint 1
    guard (v = 0)
  (parser start).any fun r => r.2.len = 0

def inspectPingRequest (start : Cursor U8) : Bool :=
  let parser : McParser Unit := do
    let v ← readVarint 1
    guard (v = 9)
    let v ← readVarint 1
    guard (v = 1)
    consumeBytes 8
  (parser start).any fun r => r.2.len = 0

/-- A length of these bounds, and as many bytes. -/
def sizedBytes (lo hi : ℕ) : McParser Unit := do
  let v ← readVarint maxPacketIdBytes
  guard (lo ≤ v.toInt ∧ v.toInt ≤ hi)
  consumeBytes v

/-- The public key and its signature, in versions 759 and 760. -/
def loginKey (protocolVersion : U32) : McParser Unit :=
  if protocolVersion.toInt ≥ 759 ∧ protocolVersion.toInt < 761 then do
    let hasPublicKey ← readByte
    if hasPublicKey = 0 then return
    consumeBytes 8
    sizedBytes 0 loginKeyMax
    sizedBytes 0 loginSignatureMax
  else pure ()

/-- The player UUID, from version 760 on; before version 764 it is optional. -/
def loginUuid (protocolVersion : U32) : McParser Unit :=
  if protocolVersion.toInt ≥ 760 then
    if protocolVersion.toInt ≥ 764 then consumeBytes 16
    else do
      let hasUuid ← readByte
      if hasUuid = 0 then return
      consumeBytes 16
  else pure ()

/-- What follows the length of a login packet: its id, the player name, and the fields of
later versions. -/
def loginFields (protocolVersion : U32) : McParser Unit := do
  let v ← readVarint 1
  guard (v = 0)
  sizedBytes 1 loginNameMax
  loginKey protocolVersion
  loginUuid protocolVersion

def loginPacket (protocolVersion : U32) : McParser Unit := do
  let v ← readVarint maxPacketLenBytes
  guard (2 ≤ v.toInt ∧ v.toInt ≤ maxPacketIdBytes + loginNameMax + 4096)
  loginFields protocolVersion

def inspectLoginPacket (start : Cursor U8) (protocolVersion : U32) : Bool :=
  (loginPacket protocolVersion start).any fun r => r.2.len = 0

/-- The packet length, packet id and protocol version of a handshake. -/
def handshakeVersion : McParser U32 := do
  let v ← readVarint maxPacketLenBytes
  guard (4 ≤ v.toInt ∧ v.toInt ≤ maxPacketIdBytes + handshakeHostMax + 16)
  let v ← readVarint 1
  guard (v = 0)
  readVarint maxPacketIdBytes

/-- Host, port and intention. -/
def handshakeIntention (protocolVersion : U32) : McParser U32 := do
  sizedBytes 0 handshakeHostMax
  consumeBytes 2
  let intention ← readVarint 1
  guard (intention = 1 ∨ intention = 2 ∨ (protocolVersion.toInt ≥ 766 ∧ intention = 3))
  return intention

/-- `inspect_handshake`: the next state (`none` for 0), and what is then in
`*protocol_version` and `*next_ptr`. The version is written before the host is checked. -/
def inspectHandshake (start : Cursor U8) (protocolVersion : U32) (next : Cursor U8) :
    Option McState × U32 × Cursor U8 :=
  if start.len < 1 then (none, protocolVersion, next)
  else if start.data.head? = some 0xFE then (some .legacyPing, protocolVersion, next)
  else
    match handshakeVersion start with
    | none => (none, protocolVersion, next)
    | some (version, c) =>
      match handshakeIntention version c with
      | none => (none, version, next)
      | some (intention, c) =>
        if c.len = 0 then
          (some (if intention = 1 then .awaitStatusRequest else .awaitLogin), version, next)
        else (some (if intention = 1 then .directStatus else .directLogin), version, c)

end AutoXdp.Minecraft
