import AutoXdp.MinecraftPackets
import AutoXdp.XdpMaps
import AutoXdp.XdpParse

/-! The Minecraft port handler (`handlers/minecraft_handler.c`): one call of
`xdp_minecraft_handler` on the maps it shares with the other programs. -/
namespace AutoXdp.Minecraft

def mcTimeoutNs : U64 := 15*1000000000
def mcBlockNs : U64 := 300*1000000000
def mcMaxOutOfOrder : U16 := 4
def mcStatusRateWindowNs : U64 := 10*1000000000
def mcStatusRateMax : U32 := 30
def mcLoginRateWindowNs : U64 := 60*1000000000
def mcLoginRateMax : U32 := 20
def mcRateTickNs : U64 := 1000000

/-- `struct mc_pending_val`. -/
structure McPendingVal where
  lastSeenNs : U64
  expectedSeq : U32
  protocolVersion : U32
  state : McState
  fails : U16
  deriving DecidableEq, Repr

/-- `struct mc_rate_val`: the tick that starts the window, and the count in it. -/
abbrev McRateMap := BpfMap Addr U64

/-- The maps of the handler; the pairs of IPv4 and IPv6 maps are one map each. -/
structure McMaps where
  pendingMc : BpfMap FlowKey McPendingVal := ∅
  tcpCt : BpfMap FlowKey U64 := ∅
  tcpPd : BpfMap FlowKey U32 := ∅
  hblk : BpfMap Addr U64 := ∅
  mcStatusRate : McRateMap := ∅
  mcLoginRate : McRateMap := ∅

/-- `struct xdp_slot_ctx`; the key is absent when the family is neither of the two. -/
structure XdpSlotCtx where
  ipProto : U8
  l3Offset : U16
  innerOffset : U16
  key : Option FlowKey
  deriving DecidableEq, Repr

/-- `fill_rate_key_v4` and `fill_rate_key_v6`. -/
def fillRateKey (key : FlowKey) : Addr :=
  match key.saddr with
  | .v4 a => (Addr.v4 a).network 24
  | .v6 a => (Addr.v6 a).network 64

/-- `MC_RATE_CHECK`: whether the limit is exceeded, and the map after it. The first
compare-and-swap goes through. -/
def mcRateCheck (rates : McRateMap) (key : Addr) (now window : U64) (maxCount : U32) :
    Bool × McRateMap :=
  let nowTick : U32 := (now / mcRateTickNs).setWidth 32
  let ticks64 := window / mcRateTickNs + if window % mcRateTickNs ≠ 0 then 1 else 0
  let ticks : U32 := if ticks64 > 0x7FFFFFFF then 0x7FFFFFFF else ticks64.setWidth 32
  let windowTicks := if ticks = 0 then 1 else ticks
  match rates.lookup key with
  | none => (false, rates.insert key (nowTick ++ (1 : U32)))
  | some current =>
    let startTick : U32 := current.extractLsb' 32 32
    let count : U32 := current.setWidth 32
    if nowTick - startTick ≥ windowTicks then (false, rates.insert key (nowTick ++ (1 : U32)))
    else if count ≥ maxCount then (true, rates)
    else (false, rates.insert key (startTick ++ (count + 1)))

/-- A verdict and the maps after the call. -/
abbrev McResult := XdpAction × McMaps

section Call

variable (key : FlowKey) (now : U64) (s : McMaps)

/-- The entry is written in place. -/
def setPending (pending : McPendingVal) : McMaps :=
  { s with pendingMc := s.pendingMc.insert key pending }

def cleanupPending : McMaps :=
  { s with
    pendingMc := s.pendingMc.erase key
    tcpPd := s.tcpPd.erase key }

def dropWithCleanup : McResult := (.drop, cleanupPending key s)

def penalizeAndDrop : McResult :=
  (.drop, cleanupPending key { s with hblk := s.hblk.insert key.saddr (now + mcBlockNs) })

def verifyAndPass : McResult :=
  (.pass, cleanupPending key { s with tcpCt := s.tcpCt.insert key now })

/-- `pending->last_seen_ns = now`, then the verdict. -/
def touch (pending : McPendingVal) (verdict : XdpAction) : McResult :=
  (verdict, setPending key s { pending with lastSeenNs := now })

/-- The payload is taken, and the next one is expected behind it. -/
def advanceTo (state : McState) (pending : McPendingVal) (payloadLen : ℕ) : McResult :=
  touch key now s
    { pending with
      state := state
      expectedSeq := pending.expectedSeq + BitVec.ofNat 32 payloadLen
      fails := 0 } .pass

/-- The packets behind the handshake. -/
def inspectSession (pending : McPendingVal) (cursor : Cursor U8) (payloadLen : ℕ) : McResult :=
  match pending.state with
  | .awaitStatusRequest =>
    if !inspectStatusRequest cursor then touch key now s pending .drop
    else
      let (limited, rates) := mcRateCheck s.mcStatusRate (fillRateKey key) now
        mcStatusRateWindowNs mcStatusRateMax
      let s := { s with mcStatusRate := rates }
      if limited then penalizeAndDrop key now (setPending key s pending)
      else advanceTo key now s .awaitPing pending payloadLen
  | .awaitPing =>
    if !inspectPingRequest cursor then touch key now s pending .drop
    else advanceTo key now s .pingComplete pending payloadLen
  | .awaitLogin =>
    if !inspectLoginPacket cursor pending.protocolVersion then touch key now s pending .drop
    else
      let (limited, rates) := mcRateCheck s.mcLoginRate (fillRateKey key) now
        mcLoginRateWindowNs mcLoginRateMax
      let s := { s with mcLoginRate := rates }
      if limited then penalizeAndDrop key now (setPending key s pending)
      else verifyAndPass key now (setPending key s pending)
  | .pingComplete => dropWithCleanup key s
  | state => advanceTo key now s state pending payloadLen

/-- A handshake, and what follows it in the same segment. The state is stored before the
rest is looked at. -/
def inspectOpening (pending : McPendingVal) (payload : Cursor U8) : McResult :=
  if pending.state = .awaitHandshake then
    if payload.data.length < maxPacketLenBytes then touch key now s pending .drop
    else
      let (nextState, version, cursor) := inspectHandshake payload pending.protocolVersion payload
      let pending := { pending with protocolVersion := version }
      match nextState with
      | none => touch key now s pending .drop
      | some .legacyPing => dropWithCleanup key (setPending key s pending)
      | some .directStatus =>
        inspectSession key now s { pending with state := .awaitStatusRequest } cursor payload.len
      | some .directLogin =>
        inspectSession key now s { pending with state := .awaitLogin } cursor payload.len
      | some state => inspectSession key now s { pending with state := state } cursor payload.len
  else inspectSession key now s pending payload payload.len

/-- A segment of a flow that has sent its ACK. -/
def inspectPayload (ack : Bool) (seq : U32) (pending : McPendingVal) (payload : Cursor U8) :
    McResult :=
  if payload.len > 0 then
    if !ack then penalizeAndDrop key now (setPending key s pending)
    else if pending.expectedSeq ≠ seq then
      let fails := if pending.fails < 0xFFFF then pending.fails + 1 else pending.fails
      let pending := { pending with fails := fails, lastSeenNs := now }
      if fails > mcMaxOutOfOrder then penalizeAndDrop key now (setPending key s pending)
      else (.drop, setPending key s pending)
    else inspectOpening key now s pending payload
  else if pending.state = .awaitHandshake then touch key now s pending .drop
  else touch key now s pending .pass

/-- A segment of a flow that has a pending entry. -/
def inspectPending (ack : Bool) (seq : U32) (pending : McPendingVal) (payload : Cursor U8) :
    McResult :=
  if pending.state = .awaitAck then
    if !ack ∨ pending.expectedSeq ≠ seq then touch key now s pending .drop
    else
      let pending := { pending with state := .awaitHandshake, lastSeenNs := now }
      if payload.len = 0 then (.drop, setPending key s pending)
      else inspectPayload key now s ack seq pending payload
  else inspectPayload key now s ack seq pending payload

/-- `l4_and_payload_len`, from the IP header at `l3`; nothing when the header does not
fit. -/
def l4AndPayloadLen (frame : Frame) (l3 inner : ℕ) : Option ℕ :=
  match key with
  | .v4 .. =>
    if l3 + 20 > frame.length then none
    else some ((frame.be16 (l3+2)).toNat - (inner - l3))
  | .v6 .. =>
    if l3 + 40 > frame.length then none
    else some ((frame.be16 (l3+4)).toNat - (inner - l3 - 40))

/-- The payload behind a TCP header of `hdrLen` bytes at `tcp`, of `l4Len` bytes with
it; nothing when it does not fit. -/
def tcpPayload (frame : Frame) (tcp hdrLen l4Len : ℕ) : Option (Cursor U8) :=
  if l4Len < hdrLen then none
  else if h : tcp + l4Len > frame.length then none
  else some ⟨frame.drop (tcp + hdrLen), l4Len - hdrLen, by rw [List.length_drop]; omega⟩

/-- The handler from the TCP header at `tcp` on. -/
def handleTcp (frame : Frame) (tcp l4Len : ℕ) : McResult :=
  let doff := (frame.byte (tcp+12) >>> 4).toNat
  if tcp + 20 > frame.length then (.drop, s)
  else if doff < 5 then (.drop, s)
  else if tcp + doff*4 > frame.length then (.drop, s)
  else
    let flags := tcpFlags frame tcp
    let seq := frame.be32 (tcp+4)
    if isSynOnly flags then
      let s := setPending key s
        { lastSeenNs := now, expectedSeq := seq + 1, protocolVersion := 0, state := .awaitAck,
          fails := 0 }
      (.pass, { s with tcpPd := s.tcpPd.insert key key.destPort })
    else
      match s.pendingMc.lookup key with
      | none => (.drop, s)
      | some pending =>
        if now - pending.lastSeenNs > mcTimeoutNs then dropWithCleanup key s
        else
          match tcpPayload frame tcp (doff*4) l4Len with
          | none => (.drop, s)
          | some payload => inspectPending key now s (hasFlag flags tcpFlagAck) seq pending payload

end Call

/-- The bytes that the IP header takes at least. -/
def ipHeaderMin : FlowKey → ℕ
  | .v4 .. => 20
  | .v6 .. => 40

/-- `bpf_xdp_adjust_head` keeps an Ethernet header's length of the frame. -/
def ethHlen : ℕ := 14

/-- `xdp_minecraft_handler` on the slot context and the frame; the head is restored when
the frame passes. -/
def xdpMinecraftHandler (now : U64) (sc : Option XdpSlotCtx) (frame : Frame) (s : McMaps) :
    McResult :=
  match sc with
  | none => (.pass, s)
  | some sc =>
    if sc.ipProto ≠ ipprotoTcp then (.pass, s)
    else if sc.l3Offset.toNat > 255 ∨ sc.innerOffset.toNat > 255 then (.drop, s)
    else
      match sc.key with
      | none => (.pass, s)
      | some key =>
        let l3 := sc.l3Offset.toNat
        let inner := sc.innerOffset.toNat
        if inner < l3 + ipHeaderMin key then (.pass, s)
        else
          match l4AndPayloadLen key frame l3 inner with
          | none => (.pass, s)
          | some l4Len =>
            if inner + ethHlen > frame.length then (.pass, s)
            else handleTcp key now s frame inner l4Len

end AutoXdp.Minecraft
