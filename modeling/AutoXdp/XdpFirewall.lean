import AutoXdp.XdpConntrack
import AutoXdp.XdpParse
import Mathlib.Tactic.Basic

/-! The XDP entry point (`bpf/xdp_firewall.c`, `bpf/include/slots.h`). -/
namespace AutoXdp
open AtomicProg

variable {P : Type}

/-- `check_tcp_ipv4`, `check_tcp_ipv6`. -/
def checkTcp (f : Frame) (key : FlowKey) (tcp : ℕ) : DpProg P XdpAction :=
  if tcp + 20 > f.length then return .drop
  else match tcpMalformedReason f tcp with
    | some malform => do
      count malform
      count .tcpDrop
      let _ ← ktimeGetNs
      return .drop
    | none => checkTcpFlow key (tcpFlags f tcp)

/-- `check_udp_ipv4`, `check_udp_ipv6`. -/
def checkUdp (f : Frame) (key : FlowKey) (udp : ℕ) (pktBytes : U64) : DpProg P XdpAction := do
  let now ← ktimeGetNs
  let cfg ← runtimeCfg
  if udp + 8 > f.length then return .drop
  else match udpMalformedReason f udp with
    | some malform => dropUdp malform
    | none => checkUdpFlow key pktBytes now cfg

/-- `dispatch_to_slot`. -/
def dispatchToSlot (ipProto : U8) : DpProg P XdpAction := do
  count .slotCall
  match ← tailCall .protoHandlers (ipProto.setWidth 32) with
  | some verdict => return verdict
  | none =>
    let cfg ← runtimeCfg
    if cfg.any fun cfg => cfg.cfgFlags &&& xdpCfgFlagSlotDrop != 0 then
      count .slotDrop
      let _ ← ktimeGetNs
      return .drop
    else
      count .slotPass
      return .pass

/-- `icmp_rate_limit`. -/
def icmpRateLimitCheck : DpProg P XdpAction := do
  let now ← ktimeGetNs
  let cfg ← runtimeCfg
  limit (.icmpRate now (cfgOr XdpRuntimeCfg.icmpTokenMax 100 cfg)
    (cfgOr XdpRuntimeCfg.icmpNsPerToken (nsPerSec / 100) cfg))

def bogonFilterActive : DpProg P Bool := do
  let cfg ← runtimeCfg
  return cfg.all fun cfg => cfg.cfgFlags &&& xdpCfgFlagBogonDisabled == 0

def passOther (reason : Counter) : DpProg P XdpAction := do
  count reason
  return .pass

def dropOther (reason : Counter) : DpProg P XdpAction := do
  count reason
  return .drop

/-- An echo request of an untrusted source spends a token. -/
def checkEcho (saddr : Addr) (other : Counter) : DpProg P XdpAction := do
  if ← isTrusted saddr then passOther other
  else if (← icmpRateLimitCheck) = .drop then dropOther .icmpDrop
  else passOther other

/-- The `IPPROTO_ICMP` case: destination unreachable, time exceeded and parameter
problem always pass. -/
def checkIcmpV4 (f : Frame) (saddr : Addr) (icmp : ℕ) : DpProg P XdpAction :=
  if icmp + 8 > f.length then passOther .ipv4Other
  else if f.byte icmp = 3 ∨ f.byte icmp = 11 ∨ f.byte icmp = 12 then passOther .ipv4Other
  else if f.byte icmp = 8 then checkEcho saddr .ipv4Other
  else passOther .ipv4Other

def checkIcmpV6 (f : Frame) (saddr : Addr) (icmp : ℕ) : DpProg P XdpAction :=
  if icmp + 8 > f.length then passOther .ipv6Other
  else if f.byte icmp = 128 then checkEcho saddr .ipv6Other
  else passOther .ipv6Other

/-- The `IPPROTO_IPV6` case: only configured tunnel endpoints pass. -/
def checkSit4 (saddr : U32) : DpProg P XdpAction := do
  if isSet (← sit4Endpoint saddr) then passOther .ipv4Other
  else dropOther .slotDrop

/-- The protocol switch of an IPv4 packet. -/
def dispatchV4 (f : Frame) (ip trans : ℕ) : DpProg P XdpAction :=
  let proto := f.byte (ip+9)
  let saddr := f.be32 (ip+12)
  if proto = ipprotoTcp then checkTcp f (flowKeyV4 f ip trans) trans
  else if proto = ipprotoUdp then
    checkUdp f (flowKeyV4 f ip trans) trans ((f.be16 (ip+2)).setWidth 64)
  else if proto = ipprotoIcmp then checkIcmpV4 f (.v4 saddr) trans
  else if proto = ipprotoIpv6 then checkSit4 saddr
  else dispatchToSlot proto

/-- The `ETH_P_IP` branch. -/
def xdpFwV4 (f : Frame) (ip : ℕ) : DpProg P XdpAction := do
  if ip + 20 > f.length then return .pass
  else if ipHlen f ip < 20 then return .pass
  else if isFragmentV4 f ip then dropOther .fragDrop
  else if (← bogonFilterActive) && isBogonV4 (f.be32 (ip+12)) then dropOther .bogonDrop
  else dispatchV4 f ip (ip + ipHlen f ip)

/-- Neighbour discovery, types 133 to 137. -/
def ndpControl (f : Frame) (nexthdr : U8) (trans : ℕ) : Bool :=
  nexthdr == ipprotoIcmpv6 && decide (trans + 8 ≤ f.length) &&
    decide (133 ≤ f.byte trans ∧ f.byte trans ≤ 137)

/-- The next-header switch of an IPv6 packet. -/
def dispatchV6 (f : Frame) (ip : ℕ) (nexthdr : U8) (trans : ℕ) : DpProg P XdpAction :=
  if nexthdr = ipprotoTcp then checkTcp f (flowKeyV6 f ip trans) trans
  else if nexthdr = ipprotoUdp then
    checkUdp f (flowKeyV6 f ip trans) trans (40 + (f.be16 (ip+4)).setWidth 64)
  else if nexthdr = ipprotoIcmpv6 then checkIcmpV6 f (.v6 (f.be128 (ip+8))) trans
  else dispatchToSlot nexthdr

/-- The `ETH_P_IPV6` branch. -/
def xdpFwV6 (f : Frame) (ip : ℕ) : DpProg P XdpAction := do
  if ip + 40 > f.length then return .pass
  else
    let (nexthdr, l4) := skipIpv6Exthdr f ipv6ExthdrMax (ip+40) (f.byte (ip+6))
    if nexthdr = ipv6FragDropSentinel then dropOther .fragDrop
    else if nexthdr = ipprotoNone then return .pass
    else if (← bogonFilterActive) && !ndpControl f nexthdr l4 && isBogonV6 (f.be128 (ip+8)) then
      dropOther .bogonDrop
    else dispatchV6 f ip nexthdr l4

/-- `_xdp_fw`. -/
def xdpFw (f : Frame) : DpProg P XdpAction := do
  let _ ← ktimeGetNs
  if 14 > f.length then return .pass
  else match stripVlanTags f vlanMaxDepth (f.be16 12) 14 with
    | none => return .pass
    | some (ethProto, l3) =>
      if isVlanProto ethProto then dropOther .vlanDrop
      else if ethProto = ethPIp then xdpFwV4 f l3
      else if ethProto = ethPIpv6 then xdpFwV6 f l3
      else passOther .nonIp

end AutoXdp
