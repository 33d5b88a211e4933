import AutoXdp.XdpInterface
import Mathlib.Tactic.Basic

/-! Admission of parsed segments (`bpf/include/conntrack.h`, `rate_limit.h`,
`port_dispatch.h`, and the parts of `bpf/xdp_firewall.c` below the parser). Ring
buffer events and the slot context are left out: no verdict reads them. -/
namespace AutoXdp
open AtomicProg

variable {P : Type}

/-- `v && *v` of a looked-up flag word. -/
def isSet (v : Option U32) : Bool := v.any fun v => v != 0

def isTrusted (a : Addr) : DpProg P Bool := do
  return isSet (← trusted a)

def abuseipdbActive : DpProg P Bool := do
  let cfg ← runtimeCfg
  return cfg.any fun cfg => cfg.cfgFlags &&& xdpCfgFlagAbuseipdbEnabled != 0

def isAbuseipdbV4 (a : U32) : DpProg P Bool := do
  return isSet (← abuseipdb a)

def isHandlerBlocked (key : FlowKey) : DpProg P Bool := do
  match ← hblk key.saddr with
  | none => return false
  | some til =>
    let now ← ktimeGetNs
    return now < til

/-- `abuseipdb_active() && key->family == CT_FAMILY_IPV4 && is_abuseipdb_v4(..)`. -/
def abuseipdbBlocks (key : FlowKey) : DpProg P Bool := do
  if ← abuseipdbActive then
    match key with
    | .v4 _ _ saddr _ => isAbuseipdbV4 saddr
    | .v6 .. => return false
  else return false

/-- `try_tcp_port_dispatch`, `try_udp_port_dispatch`: the tail call does not
return when a handler is loaded. -/
def tryPortDispatch (t : ProgArray) (destPort : U32) (rest : DpProg P XdpAction) :
    DpProg P XdpAction := do
  count .slotCall
  match ← tailCall t destPort with
  | some verdict => return verdict
  | none => rest

def dropTcp (reason : Counter) : DpProg P XdpAction := do
  count reason
  count .tcpDrop
  return .drop

/-- A limiter and the drop it decides. -/
def limitOr (q : Limiter) (reason : Counter) (rest : DpProg P XdpAction) :
    DpProg P XdpAction := do
  if (← limit q) = .drop then dropTcp reason
  else rest

/-- The fields `precheck_new_tcp_syn` reads from a missing policy. -/
def noTcpPolicy : TcpPortPolicyCfg where
  synRateMax := 0
  synAggRateMax := 0
  connLimitMax := 0
  sourcePrefixV4 := 32
  sourcePrefixV6 := 128
  connPrefixLimitMax := 0
  connPortLimitMax := 0

def precheckNewTcpSyn (key : FlowKey) (destPort : U32) (bypassRate : Bool) (now : U64)
    (cfg : Option XdpRuntimeCfg) : DpProg P XdpAction := do
  let policy := (← tcpPolicy destPort).getD noTcpPolicy
  let p4 := policy.sourcePrefixV4
  let p6 := policy.sourcePrefixV6
  let conns : DpProg P XdpAction :=
    limitOr (.tcpConn key now destPort policy.connLimitMax cfg) .tcpConnLimitDrop <|
    limitOr (.tcpConnPrefix key now destPort p4 p6 policy.connPrefixLimitMax cfg)
      .tcpConnPrefixLimitDrop <|
    limitOr (.tcpConnPort destPort now policy.connPortLimitMax cfg) .tcpConnPortLimitDrop <|
    return .pass
  if bypassRate then conns
  else
    limitOr (.synRate key now destPort policy.synRateMax p4 p6 cfg) .synRateDrop <|
    limitOr (.synAggRate key now destPort policy.synAggRateMax p4 p6 cfg) .synAggRateDrop conns

/-- `tcp_conntrack_delete`, then `tcp_src_conn_record_close` of an established
connection. -/
def ctRemove (key : FlowKey) (raw now : U64) (destPort : U32) : DpProg P Unit := do
  let _ ← ctDelete .tcp key
  if isPending raw then return ()
  else recordClose key now destPort

/-- The insertion that ends `allow_new_tcp_syn`. -/
def insertHalfOpen (key : FlowKey) (destPort : U32) (bypassRate prechecked : Bool) (now : U64)
    (cfg : Option XdpRuntimeCfg) : DpProg P XdpAction := do
  let enter : DpProg P XdpAction := do
    let _ ← ctUpdate .tcp key (now ||| ctSynPending) .any
    count .tcpNewAllow
    return .pass
  if prechecked then enter
  else if (← precheckNewTcpSyn key destPort bypassRate now cfg) = .drop then return .drop
  else enter

def allowNewTcpSyn (key : FlowKey) (destPort : U32) (bypassRate prechecked : Bool) (now : U64)
    (cfg : Option XdpRuntimeCfg) : DpProg P XdpAction := do
  match ← ctLookup .tcp key with
  | none => insertHalfOpen key destPort bypassRate prechecked now cfg
  | some lastSeen =>
    let raw ← ctLoad lastSeen
    let age := now - stamp raw
    if age > cfgCtTimeoutNs raw cfg then
      ctRemove key raw now destPort
      insertHalfOpen key destPort bypassRate prechecked now cfg
    else
      if age > cfgCtRefreshNs cfg then
        let newVal := if isPending raw then now ||| ctSynPending else now
        let _ ← ctUpdate .tcp key newVal .exist
        recordActivity key now destPort
      count .tcpNewAllow
      return .pass

/-- `check_tcp_conntrack` for `TCP_FLAG_RST`. -/
def checkTcpRst (key : FlowKey) (flags : U8) (destPort : U32) (now : U64)
    (cfg : Option XdpRuntimeCfg) : DpProg P XdpAction := do
  if !hasFlag flags tcpFlagAck then
    count .tcpDrop
    return .drop
  else
    match ← ctLookup .tcp key with
    | none => dropTcp .tcpCtMiss
    | some lastSeen =>
      let raw ← ctLoad lastSeen
      if now - stamp raw > cfgCtTimeoutNs raw cfg then
        ctRemove key raw now destPort
        dropTcp .tcpCtMiss
      else
        ctRemove key raw now destPort
        count .tcpEstablished
        return .pass

/-- The promotion or refresh of an unexpired entry by an inbound `ACK`. -/
def touchEstablished (key : FlowKey) (lastSeen : P) (raw now : U64) (destPort : U32)
    (cfg : Option XdpRuntimeCfg) : DpProg P Unit := do
  if isPending raw then
    if (← ctCas lastSeen raw now) = raw then recordEstablished key now destPort cfg
    else return ()
  else if now - stamp raw > cfgCtRefreshNs cfg then
    let _ ← ctUpdate .tcp key now .exist
    recordActivity key now destPort
  else return ()

/-- `check_tcp_conntrack` for `TCP_FLAG_ACK` without `TCP_FLAG_RST`. -/
def checkTcpAck (key : FlowKey) (flags : U8) (destPort : U32) (now : U64)
    (cfg : Option XdpRuntimeCfg) : DpProg P XdpAction := do
  match ← ctLookup .tcp key with
  | some lastSeen =>
    let raw ← ctLoad lastSeen
    if now - stamp raw > cfgCtTimeoutNs raw cfg then
      ctRemove key raw now destPort
      dropTcp .tcpCtMiss
    else if hasFlag flags tcpFlagFin then
      ctRemove key raw now destPort
      count .tcpEstablished
      return .pass
    else
      touchEstablished key lastSeen raw now destPort cfg
      count .tcpEstablished
      return .pass
  | none =>
    match ← tcpPending key with
    | some pendingPort => tryPortDispatch .tcpPortHandlers pendingPort (dropTcp .tcpCtMiss)
    | none => dropTcp .tcpCtMiss

/-- `check_tcp_conntrack` for `TCP_FLAG_FIN` alone. -/
def checkTcpFin (key : FlowKey) (destPort : U32) (now : U64) : DpProg P XdpAction := do
  match ← ctLookup .tcp key with
  | some lastSeen =>
    let raw ← ctLoad lastSeen
    ctRemove key raw now destPort
    count .tcpEstablished
    return .pass
  | none =>
    count .tcpDrop
    return .drop

/-- `check_tcp_conntrack` for a `SYN` without `ACK`. -/
def checkTcpSyn (key : FlowKey) (destPort : U32) (now : U64) (cfg : Option XdpRuntimeCfg) :
    DpProg P XdpAction := do
  if !isSet (← whitelist .tcp destPort) then
    count .tcpDrop
    return .drop
  else if ← abuseipdbBlocks key then dropTcp .abuseipdbDrop
  else if ← isHandlerBlocked key then dropTcp .handlerBlockDrop
  else if (← precheckNewTcpSyn key destPort false now cfg) = .drop then return .drop
  else
    tryPortDispatch .tcpPortHandlers destPort
      (allowNewTcpSyn key destPort false true now cfg)

def checkTcpConntrack (key : FlowKey) (flags : U8) (destPort : U32) : DpProg P XdpAction := do
  let now ← ktimeGetNs
  let cfg ← runtimeCfg
  if hasFlag flags tcpFlagRst then checkTcpRst key flags destPort now cfg
  else if hasFlag flags tcpFlagAck then checkTcpAck key flags destPort now cfg
  else if hasFlag flags tcpFlagFin then checkTcpFin key destPort now
  else if isSynOnly flags then checkTcpSyn key destPort now cfg
  else
    count .tcpDrop
    return .drop

/-- `check_tcp_ipv4` and `check_tcp_ipv6` below the malformed-segment check. -/
def checkTcpFlow (key : FlowKey) (flags : U8) : DpProg P XdpAction := do
  let destPort := key.destPort
  if isSynOnly flags then
    let now ← ktimeGetNs
    let cfg ← runtimeCfg
    if ← isTrusted key.saddr then allowNewTcpSyn key destPort true false now cfg
    else if (← acl .tcp key.saddr).any (aclPortMatch · destPort) then
      allowNewTcpSyn key destPort true false now cfg
    else checkTcpConntrack key flags destPort
  else checkTcpConntrack key flags destPort

/-! UDP. -/

def dropUdp (reason : Counter) : DpProg P XdpAction := do
  count reason
  count .udpDrop
  return .drop

def passUdp : DpProg P XdpAction := do
  count .udpPass
  return .pass

/-- The fields the UDP path reads from a missing policy. -/
def noUdpPolicy : UdpPortPolicyCfg where
  rateMax := 0
  aggRateMax := 0
  sourcePrefixV4 := 32
  sourcePrefixV6 := 128

/-- The rate limits and the handler dispatch at the end of `check_udp_ipv4`,
`check_udp_ipv6`. -/
def checkUdpLimits (key : FlowKey) (destPort : U32) (pktBytes now : U64)
    (cfg : Option XdpRuntimeCfg) : DpProg P XdpAction := do
  let policy := (← udpPolicy destPort).getD noUdpPolicy
  let p4 := policy.sourcePrefixV4
  let p6 := policy.sourcePrefixV6
  if (← limit (.udpRate key now destPort policy.rateMax p4 p6 cfg)) = .drop then
    dropUdp .udpRateDrop
  else if (← limit (.udpAggRate key now destPort pktBytes policy.aggRateMax p4 p6 cfg)) = .drop then
    dropUdp .udpAggRateDrop
  else if (← limit (.udpGlobalRate now pktBytes cfg)) = .drop then dropUdp .udpGlobalRateDrop
  else tryPortDispatch .udpPortHandlers destPort passUdp

/-- The AbuseIPDB list holds IPv4 sources only; the IPv6 path does not ask. -/
def udpAbuseipdbBlocks (key : FlowKey) : DpProg P Bool :=
  match key with
  | .v4 .. => abuseipdbBlocks key
  | .v6 .. => return false

/-- From the whitelist check of `check_udp_ipv4`, `check_udp_ipv6` on. -/
def checkUdpNew (key : FlowKey) (destPort : U32) (pktBytes now : U64)
    (cfg : Option XdpRuntimeCfg) : DpProg P XdpAction := do
  if !isSet (← whitelist .udp destPort) then
    count .udpDrop
    return .drop
  else if ← isTrusted key.saddr then passUdp
  else if ← udpAbuseipdbBlocks key then dropUdp .abuseipdbDrop
  else if (← limit (.udpGlobalBlock now)) = .drop then dropUdp .udpGlobalRateDrop
  else if (← udpValidUntil key).any (now < ·) then passUdp
  else if (← acl .udp key.saddr).any (aclPortMatch · destPort) then passUdp
  else if ← isHandlerBlocked key then dropUdp .handlerBlockDrop
  else checkUdpLimits key destPort pktBytes now cfg

/-- `check_udp_ipv4`, `check_udp_ipv6` below the malformed-datagram check. -/
def checkUdpFlow (key : FlowKey) (pktBytes now : U64) (cfg : Option XdpRuntimeCfg) :
    DpProg P XdpAction := do
  let destPort := key.destPort
  match ← ctLookup .udp key with
  | some lastSeen =>
    let age := now - (← ctLoad lastSeen)
    if age ≤ cfgUdpTimeoutNs cfg then
      if age > cfgCtRefreshNs cfg then
        let _ ← ctUpdate .udp key now .exist
      passUdp
    else
      let _ ← ctDelete .udp key
      checkUdpNew key destPort pktBytes now cfg
  | none => checkUdpNew key destPort pktBytes now cfg

end AutoXdp
